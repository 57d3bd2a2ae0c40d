/-
# The upper median

The element in the middle of a list that has been sorted, the higher of the two middle ones when
the length is even.  It does not depend on the order of the list (`upper_perm`), it is one of the
elements (`upper_mem`), and of a list that is the image of a sorted one it is the image of the
middle (`upper_map`).

At least half of the elements are no smaller, so it is at most twice the mean of a list of
nonnegative numbers (`length_mul_upper_le`).
-/
import Mathlib.Algebra.Order.BigOperators.Group.List
import Mathlib.Algebra.Order.Field.Basic
import Mathlib.Data.List.Sort
import Mathlib.Tactic.Linarith

namespace Median

section Order

variable {α : Type} [LinearOrder α]

def sorted (l : List α) : List α := l.mergeSort fun a b => decide (a ≤ b)

/-- The upper median; `d` is the answer for the empty list. -/
def upper (l : List α) (d : α) : α := (sorted l).getD (l.length / 2) d

theorem sorted_perm (l : List α) : (sorted l).Perm l := List.mergeSort_perm l _

theorem sorted_pairwise (l : List α) : (sorted l).Pairwise (· ≤ ·) := by
  have htrans : ∀ a b c : α, decide (a ≤ b) → decide (b ≤ c) → decide (a ≤ c) := by
    intro a b c hab hbc
    simp only [decide_eq_true_eq] at *
    exact le_trans hab hbc
  have htotal : ∀ a b : α, decide (a ≤ b) || decide (b ≤ a) := by
    intro a b
    simpa using le_total a b
  exact (List.pairwise_mergeSort htrans htotal l).imp (by simp)

theorem sorted_of_pairwise {l : List α} (h : l.Pairwise (· ≤ ·)) : sorted l = l :=
  (sorted_perm l).eq_of_pairwise' (sorted_pairwise l) h

theorem upper_perm {l l' : List α} (h : l.Perm l') (d : α) : upper l d = upper l' d := by
  have hsorted : sorted l = sorted l' :=
    ((sorted_perm l).trans (h.trans (sorted_perm l').symm)).eq_of_pairwise'
      (sorted_pairwise l) (sorted_pairwise l')
  rw [upper, upper, hsorted, h.length_eq]

/-- The upper median by its position. -/
theorem upper_eq_get {l : List α} (d : α) (h : l.length / 2 < (sorted l).length) :
    upper l d = (sorted l).get ⟨l.length / 2, h⟩ := by
  exact (List.getElem_eq_getD d).symm

theorem half_lt {l : List α} (h : l ≠ []) : l.length / 2 < (sorted l).length := by
  have hpos := List.length_pos_iff.mpr h
  rw [(sorted_perm l).length_eq]
  omega

theorem upper_mem {l : List α} (h : l ≠ []) (d : α) : upper l d ∈ l := by
  rw [upper_eq_get d (half_lt h)]
  exact (sorted_perm l).mem_iff.mp (List.get_mem _ _)

/-- The upper median of an image that is sorted. -/
theorem upper_map {β : Type} {f : β → α} {l : List β} (h : (l.map f).Pairwise (· ≤ ·))
    {k : Fin l.length} (hk : (k : ℕ) = l.length / 2) (d : α) : upper (l.map f) d = f (l.get k) := by
  have hlt : (l.map f).length / 2 < (sorted (l.map f)).length := by
    rw [(sorted_perm _).length_eq, List.length_map, ← hk]
    exact k.isLt
  rw [upper_eq_get d hlt]
  simp [sorted_of_pairwise h, hk]

end Order

/-- Twice the sum of nonnegative numbers is at least their number times their upper median. -/
theorem length_mul_upper_le {K : Type} [Field K] [LinearOrder K] [IsStrictOrderedRing K]
    {l : List K} (hnonneg : ∀ a ∈ l, 0 ≤ a) (d : K) (h : l ≠ []) :
    l.length * upper l d ≤ 2 * l.sum := by
  have hperm := sorted_perm l
  have hmem := upper_mem h d
  have hsum : l.sum =
      ((sorted l).take (l.length / 2)).sum + ((sorted l).drop (l.length / 2)).sum := by
    rw [← List.sum_append, List.take_append_drop, hperm.sum_eq]
  have hlow : 0 ≤ ((sorted l).take (l.length / 2)).sum :=
    List.sum_nonneg fun a ha => hnonneg a (hperm.mem_iff.mp (List.mem_of_mem_take ha))
  have hhigh : ∀ a ∈ (sorted l).drop (l.length / 2), upper l d ≤ a := by
    intro a ha
    rw [upper_eq_get d (half_lt h)]
    obtain ⟨j, hj, rfl⟩ := List.mem_drop_iff_getElem.mp ha
    rcases Nat.eq_zero_or_pos j with rfl | hpos
    · exact le_refl _
    · exact List.pairwise_iff_getElem.mp (sorted_pairwise l) _ _ (half_lt h) _ (by omega)
  have hmany := List.card_nsmul_le_sum _ _ hhigh
  rw [List.length_drop, hperm.length_eq, nsmul_eq_mul] at hmany
  have hcount : (l.length : K) ≤ 2 * ((l.length - l.length / 2 : ℕ) : K) := by
    have : l.length ≤ 2 * (l.length - l.length / 2) := by omega
    exact_mod_cast this
  have hpos := hnonneg _ hmem
  calc (l.length : K) * upper l d
      ≤ 2 * ((l.length - l.length / 2 : ℕ) : K) * upper l d :=
        mul_le_mul_of_nonneg_right hcount hpos
    _ = 2 * (((l.length - l.length / 2 : ℕ) : K) * upper l d) := mul_assoc _ _ _
    _ ≤ 2 * l.sum := by linarith

end Median
