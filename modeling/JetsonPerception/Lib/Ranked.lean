/-
# Greedy selection from a ranked list

What a greedy selection keeps, told by looking back (`greedy_eq_filter`), and what the order of
equally ranked elements has to do with it.

A ranked list descends in a score, and elements of one score stand in any order: a sort with a
comparator says no more (`Sorts`).  An element *survives* when no survivor of a higher score hits
it, which does not mention the list's order.  When no two survivors of one score hit each other,
the survivors are what every ranked order selects (`mem_greedy_iff`); when two do, each of them is
selected in the order in which it comes first of its score.  So the selection is the same
multiset for all ranked orders exactly then (`greedy_perm_iff`).
-/
import JetsonPerception.Lib.Selection
import Mathlib.Data.List.Pairwise
import Mathlib.Data.List.Perm.Basic

namespace Selection

variable {α κ : Type} {hits : α → α → Bool}

/-! ## Looking back -/

/-- The choice of positions in which one is chosen iff no chosen one before it hits it. -/
def Keeps (hits : α → α → Bool) (l : List α) (keep : Fin l.length → Bool) : Prop :=
  ∀ i, keep i = true ↔ ∀ j < i, keep j = true → hits (l.get j) (l.get i) = false

/-- No other choice is like that. -/
theorem Keeps.unique {l : List α} {keep keep' : Fin l.length → Bool} (h : Keeps hits l keep)
    (h' : Keeps hits l keep') : keep = keep' := by
  have hall : ∀ i, keep i = keep' i := by
    intro i
    induction i using WellFoundedLT.induction with
    | ind i ih =>
        rw [Bool.eq_iff_iff, h i, h' i]
        constructor
        · intro hfree j hj hkeep
          exact hfree j hj (by rwa [ih j hj])
        · intro hfree j hj hkeep
          exact hfree j hj (by rwa [← ih j hj])
  exact funext hall

/-- The positions that the selection keeps. -/
def keptAt (hits : α → α → Bool) (l : List α) (i : Fin l.length) : Bool :=
  !(greedy hits (l.take i)).any (hits · (l.get i))

theorem greedy_take (hits : α → α → Bool) (l : List α) : ∀ k ≤ l.length, greedy hits (l.take k) =
    (((List.finRange l.length).take k).filter (keptAt hits l)).map l.get := by
  intro k
  induction k with
  | zero => intro _; rfl
  | succ k ih =>
      intro hk
      have hlt : k < l.length := hk
      have htake : l.take (k + 1) = l.take k ++ [l[k]] := (List.take_append_getElem hlt).symm
      have hrange : (List.finRange l.length).take (k + 1) =
          (List.finRange l.length).take k ++ [⟨k, hlt⟩] := by
        have hlen : k < (List.finRange l.length).length := by simpa using hlt
        rw [← List.take_append_getElem hlen, List.getElem_finRange]
        rfl
      rw [htake, greedy_concat, hrange, List.filter_append, List.map_append,
        ← ih (Nat.le_of_lt hlt)]
      cases hany : (greedy hits (l.take k)).any (hits · l[k]) with
      | true =>
          have hat : keptAt hits l ⟨k, hlt⟩ = false := by simp [keptAt, hany]
          simp [hat]
      | false =>
          have hat : keptAt hits l ⟨k, hlt⟩ = true := by simp [keptAt, hany]
          simp [hat]

/-- What is kept stands at the kept positions. -/
theorem greedy_eq_filter (hits : α → α → Bool) (l : List α) : greedy hits l =
    ((List.finRange l.length).filter (keptAt hits l)).map l.get := by
  have h := greedy_take hits l l.length (Nat.le_refl _)
  rwa [List.take_length, List.take_of_length_le (by simp)] at h

theorem mem_take_finRange {n : ℕ} {i j : Fin n} :
    j ∈ (List.finRange n).take i ↔ j < i := by
  rw [List.mem_take_iff_getElem]
  simp only [List.getElem_finRange, List.length_finRange]
  constructor
  · rintro ⟨k, hk, rfl⟩
    exact Fin.lt_def.mpr (by simp; omega)
  · intro hj
    exact ⟨j, by omega, Fin.ext rfl⟩

/-- A position is kept iff no kept one before it hits it. -/
theorem keeps_keptAt (hits : α → α → Bool) (l : List α) : Keeps hits l (keptAt hits l) := by
  intro i
  have hfree : keptAt hits l i = true ↔ ∀ a ∈ greedy hits (l.take i), hits a l[i] = false := by
    simp [keptAt]
  rw [hfree, greedy_take hits l i i.isLt.le]
  constructor
  · intro h j hj hkeep
    refine h _ (List.mem_map.mpr ⟨j, List.mem_filter.mpr ⟨?_, hkeep⟩, rfl⟩)
    exact mem_take_finRange.mpr hj
  · intro h a ha
    obtain ⟨j, hj, rfl⟩ := List.mem_map.mp ha
    obtain ⟨hj, hkeep⟩ := List.mem_filter.mp hj
    exact h j (mem_take_finRange.mp hj) hkeep

/-- Of two kept elements the earlier does not hit the later. -/
theorem greedy_pairwise (hits : α → α → Bool) (l : List α) :
    (greedy hits l).Pairwise fun a b => hits a b = false := by
  induction l using List.reverseRecOn with
  | nil => exact .nil
  | append_singleton l a ih =>
      rw [greedy_concat]
      split
      case isTrue => exact ih
      case isFalse hfree =>
          refine List.pairwise_append.mpr ⟨ih, List.pairwise_singleton _ _, ?_⟩
          intro b hb c hc
          obtain rfl := List.mem_singleton.mp hc
          simpa using fun h => hfree (List.any_eq_true.mpr ⟨b, hb, h⟩)

/-- An element is kept unless something kept before it hits it. -/
theorem greedy_split (hits : α → α → Bool) (pre post : List α) (a : α) :
    a ∈ greedy hits (pre ++ a :: post) ∨ ∃ b ∈ greedy hits pre, hits b a = true := by
  obtain ⟨rest, hrest, -⟩ := greedy_append hits (pre ++ [a]) post
  rw [List.append_assoc, List.singleton_append, greedy_concat] at hrest
  split at hrest
  case isTrue hany =>
      obtain ⟨b, hb, hit⟩ := List.any_eq_true.mp hany
      exact .inr ⟨b, hb, hit⟩
  case isFalse =>
      left
      rw [hrest]
      simp

/-! ## Ranked lists -/

variable [LinearOrder κ] {score : α → κ}

/-- The results of `sort` are its inputs' elements, in a descending order: what a sort with a
comparator promises. -/
structure Sorts (score : α → κ) (sort : List α → List α) : Prop where
  perm : ∀ l, (sort l).Perm l
  descending : ∀ l, Descending score (sort l)

theorem greedy_descending {l : List α} (h : Descending score l) :
    Descending score (greedy hits l) :=
  List.Pairwise.sublist (greedy_sublist l) h

/-- A dropped element of a ranked list is hit by a kept one of at least its score. -/
theorem Descending.dropped {l : List α} (h : Descending score l) {a : α} (ha : a ∈ l)
    (hdrop : a ∉ greedy hits l) :
    ∃ b ∈ greedy hits l, hits b a = true ∧ score a ≤ score b := by
  obtain ⟨pre, post, rfl⟩ := List.append_of_mem ha
  rcases greedy_split hits pre post a with hkept | ⟨b, hb, hit⟩
  · exact absurd hkept hdrop
  · obtain ⟨rest, hrest, -⟩ := greedy_append hits pre (a :: post)
    refine ⟨b, by rw [hrest]; exact List.mem_append_left _ hb, hit, ?_⟩
    exact (List.pairwise_append.mp h).2.2 b ((greedy_sublist pre).subset hb) a
      List.mem_cons_self

/-! ## Survivors -/

/-- What is above an element of the list is above everything below it, and it is not. -/
theorem length_above_lt {l : List α} {a b : α} (hb : b ∈ l) (hlt : score a < score b) :
    (l.filter fun c => score b < score c).length <
      (l.filter fun c => score a < score c).length := by
  have hsub : (l.filter fun c => score b < score c).Sublist
      (l.filter fun c => score a < score c) :=
    List.monotone_filter_right l fun c hc => by
      simp only [decide_eq_true_eq] at hc ⊢
      exact lt_trans hlt hc
  refine lt_of_le_of_ne hsub.length_le fun heq => ?_
  have hmem : b ∈ l.filter fun c => score a < score c :=
    List.mem_filter.mpr ⟨hb, by simpa using hlt⟩
  rw [← hsub.eq_of_length heq] at hmem
  exact lt_irrefl _ (of_decide_eq_true (List.mem_filter.mp hmem).2)

/-- No survivor of a higher score hits it. -/
def Survives (hits : α → α → Bool) (score : α → κ) (l : List α) (a : α) : Prop :=
  ∀ b, b ∈ l → score a < score b → Survives hits score l b → hits b a = false
termination_by (l.filter fun c => score a < score c).length
decreasing_by
  next hb hlt => exact length_above_lt hb hlt

/-- Induction from the top of the list down. -/
theorem above_induction (score : α → κ) {l : List α} {P : α → Prop}
    (h : ∀ a, (∀ b ∈ l, score a < score b → P b) → P a) (a : α) : P a :=
  h a fun b _ _ => above_induction score h b
termination_by (l.filter fun c => score a < score c).length
decreasing_by
  next hb hlt => exact length_above_lt hb hlt

/-- No two different survivors of one score hit each other. -/
def TieFree (hits : α → α → Bool) (score : α → κ) (l : List α) : Prop :=
  ∀ a ∈ l, ∀ b ∈ l, a ≠ b → score a = score b →
    Survives hits score l a → Survives hits score l b → hits a b = false

variable {l s : List α} {a : α}

/-- An element that nothing kept hits is kept as often as it stands there. -/
theorem count_greedy [DecidableEq α] (hfree : ∀ b ∈ greedy hits l, hits b a = false) :
    (greedy hits l).count a = l.count a := by
  induction l using List.reverseRecOn with
  | nil => rfl
  | append_singleton l c ih =>
      obtain ⟨rest, hrest, -⟩ := greedy_append hits l [c]
      have hfree' : ∀ b ∈ greedy hits l, hits b a = false := by
        intro b hb
        refine hfree b ?_
        rw [hrest]
        exact List.mem_append_left _ hb
      rw [greedy_concat, List.count_append, ← ih hfree']
      split
      case isTrue hany =>
          have hne : c ≠ a := by
            rintro rfl
            obtain ⟨b, hb, hit⟩ := List.any_eq_true.mp hany
            rw [hfree' b hb] at hit
            exact Bool.noConfusion hit
          have hzero : List.count a [c] = 0 :=
            List.count_eq_zero_of_not_mem (by simpa using hne.symm)
          rw [hzero, Nat.add_zero]
      case isFalse => exact List.count_append

/-- A ranked order in which a given element comes first of its score. -/
theorem exists_first [DecidableEq α] (score : α → κ) (ha : a ∈ l) :
    ∃ pre post, (pre ++ a :: post).Perm l ∧ Descending score (pre ++ a :: post) ∧
      ∀ b ∈ pre, score a < score b := by
  let ranked := l.mergeSort fun a b => decide (score b ≤ score a)
  have hranked : ranked.Perm l := List.mergeSort_perm _ _
  have hdesc : Descending score ranked := sortsStably_mergeSort.descending l
  let pre := ranked.filter fun b => score a < score b
  let low := ranked.filter fun b => ¬ score a < score b
  have hsplit : ranked = pre ++ low := hdesc.split (score a)
  have hlow : a ∈ low :=
    List.mem_filter.mpr ⟨hranked.mem_iff.mpr ha, by simp⟩
  have hpre : ∀ b ∈ pre, score a < score b := fun b hb =>
    of_decide_eq_true (List.mem_filter.mp hb).2
  have hle : ∀ b ∈ low, score b ≤ score a := fun b hb =>
    not_lt.mp (of_decide_eq_true (List.mem_filter.mp hb).2)
  have hrest : ∀ b ∈ low.erase a, score b ≤ score a := fun b hb =>
    hle b (List.mem_of_mem_erase hb)
  refine ⟨pre, low.erase a, ?_, ?_, hpre⟩
  · have hback : (pre ++ a :: low.erase a).Perm (pre ++ low) :=
      (List.perm_cons_erase hlow).symm.append_left pre
    exact hback.trans ((List.Perm.of_eq hsplit.symm).trans hranked)
  · refine List.pairwise_append.mpr ⟨hdesc.filter _, ?_, ?_⟩
    · exact List.pairwise_cons.mpr ⟨hrest, (hdesc.filter _).sublist List.erase_sublist⟩
    · intro b hb c hc
      rcases List.mem_cons.mp hc with rfl | hc
      · exact (hpre b hb).le
      · exact (hrest c hc).trans (hpre b hb).le

section Symmetric

variable (hsymm : ∀ a b, hits a b = hits b a)

include hsymm

/-- Two different kept elements do not hit each other. -/
theorem greedy_free {b : α} (ha : a ∈ greedy hits l) (hb : b ∈ greedy hits l) (hne : a ≠ b) :
    hits a b = false := by
  have : Std.Symm fun a b => hits a b = false := ⟨fun a b h => by rwa [hsymm b a]⟩
  exact (greedy_pairwise hits l).forall ha hb hne

/-- An element that is kept survives, when above it the survivors are kept. -/
theorem survives_of_mem
    (habove : ∀ b ∈ l, score a < score b → (b ∈ greedy hits s ↔ Survives hits score l b))
    (ha : a ∈ greedy hits s) : Survives hits score l a := by
  rw [Survives]
  intro b hb hlt hsurv
  have hb' : b ∈ greedy hits s := (habove b hb hlt).mpr hsurv
  have hne : b ≠ a := by
    rintro rfl
    exact lt_irrefl _ hlt
  exact greedy_free hsymm hb' ha hne

/-- Without ties the survivors are what is kept, in whatever order. -/
theorem mem_greedy_iff (htie : TieFree hits score l) (hs : s.Perm l)
    (hdesc : Descending score s) (ha : a ∈ l) :
    a ∈ greedy hits s ↔ Survives hits score l a := by
  induction a using above_induction score (l := l) with
  | h a ih =>
      have habove : ∀ c, score c = score a → ∀ b ∈ l, score c < score b →
          (b ∈ greedy hits s ↔ Survives hits score l b) := by
        intro c hc b hb hlt
        exact ih b hb (hc ▸ hlt) hb
      constructor
      · exact survives_of_mem hsymm (habove a rfl)
      · intro hsurv
        by_contra hdrop
        obtain ⟨b, hb, hit, hle⟩ := hdesc.dropped (hs.mem_iff.mpr ha) hdrop
        have hbl : b ∈ l := hs.mem_iff.mp ((greedy_sublist s).subset hb)
        rcases hle.lt_or_eq with hlt | heq
        · have hbs := (habove a rfl b hbl hlt).mp hb
          rw [Survives] at hsurv
          rw [hsurv b hbl hlt hbs] at hit
          exact Bool.noConfusion hit
        · have hbs := survives_of_mem hsymm (habove b heq.symm) hb
          have hne : a ≠ b := by
            rintro rfl
            exact hdrop hb
          rw [hsymm, htie a ha b hbl hne heq hsurv hbs] at hit
          exact Bool.noConfusion hit

/-- How often a kept element is kept. -/
theorem count_of_mem [DecidableEq α] (ha : a ∈ greedy hits l) :
    (greedy hits l).count a = if hits a a = true then 1 else l.count a := by
  split
  case isTrue hself =>
      refine Nat.le_antisymm ?_ (List.count_pos_iff.mpr ha)
      by_contra hmore
      have htwo : [a, a].Sublist (greedy hits l) := by
        have hrep := List.replicate_sublist_iff.mpr (Nat.lt_of_not_le hmore)
        exact hrep
      have hfree := (greedy_pairwise hits l).sublist htwo
      rw [List.pairwise_pair, hself] at hfree
      exact Bool.noConfusion hfree
  case isFalse hself =>
      refine count_greedy fun b hb => ?_
      by_cases hba : b = a
      · subst hba
        simpa using hself
      · exact greedy_free hsymm hb ha hba

/-- Without ties every ranked order selects the same multiset. -/
theorem greedy_perm [DecidableEq α] (htie : TieFree hits score l) {s' : List α}
    (hs : s.Perm l) (hdesc : Descending score s) (hs' : s'.Perm l)
    (hdesc' : Descending score s') : (greedy hits s).Perm (greedy hits s') := by
  refine List.perm_iff_count.mpr fun a => ?_
  have hmem : a ∈ greedy hits s ↔ a ∈ greedy hits s' := by
    by_cases ha : a ∈ l
    · rw [mem_greedy_iff hsymm htie hs hdesc ha, mem_greedy_iff hsymm htie hs' hdesc' ha]
    · have hnot : ∀ {t : List α}, t.Perm l → a ∉ greedy hits t := fun ht h =>
        ha (ht.mem_iff.mp ((greedy_sublist _).subset h))
      exact iff_of_false (hnot hs) (hnot hs')
  by_cases ha : a ∈ greedy hits s
  · rw [count_of_mem hsymm ha, count_of_mem hsymm (hmem.mp ha), (hs.trans hs'.symm).count_eq]
  · rw [List.count_eq_zero_of_not_mem ha, List.count_eq_zero_of_not_mem (mt hmem.mpr ha)]

/-- **Every ranked order selects the same multiset** exactly when there are no ties. -/
theorem greedy_perm_iff [DecidableEq α] :
    (∀ s s', s.Perm l → Descending score s → s'.Perm l → Descending score s' →
      (greedy hits s).Perm (greedy hits s')) ↔ TieFree hits score l := by
  constructor
  · intro hsame
    have hmem : ∀ a, a ∈ l → ∀ s, s.Perm l → Descending score s →
        (a ∈ greedy hits s ↔ Survives hits score l a) := by
      intro a
      induction a using above_induction score (l := l) with
      | h a ih =>
          intro ha s hs hdesc
          have habove : ∀ s, s.Perm l → Descending score s → ∀ b ∈ l, score a < score b →
              (b ∈ greedy hits s ↔ Survives hits score l b) :=
            fun s hs hdesc b hb hlt => ih b hb hlt hb s hs hdesc
          constructor
          · exact survives_of_mem hsymm (habove s hs hdesc)
          · intro hsurv
            -- where it comes first of its score, only what is above could hit it
            obtain ⟨pre, post, hs', hdesc', hpre⟩ := exists_first score ha
            refine (hsame _ s hs' hdesc' hs hdesc).mem_iff.mp ?_
            rcases greedy_split hits pre post a with hkept | ⟨b, hb, hit⟩
            · exact hkept
            · have hlt : score a < score b := hpre b ((greedy_sublist pre).subset hb)
              obtain ⟨rest, hrest, -⟩ := greedy_append hits pre (a :: post)
              have hbs : b ∈ greedy hits (pre ++ a :: post) := by
                rw [hrest]
                exact List.mem_append_left _ hb
              have hbl : b ∈ l := hs'.mem_iff.mp ((greedy_sublist _).subset hbs)
              rw [Survives] at hsurv
              have hmiss := hsurv b hbl hlt ((habove _ hs' hdesc' b hbl hlt).mp hbs)
              rw [hmiss] at hit
              exact Bool.noConfusion hit
    intro a ha b hb hne _ hsa hsb
    obtain ⟨pre, post, hs, hdesc, -⟩ := exists_first score ha
    exact greedy_free hsymm ((hmem a ha _ hs hdesc).mpr hsa) ((hmem b hb _ hs hdesc).mpr hsb) hne
  · intro htie s s' hs hdesc hs' hdesc'
    exact greedy_perm hsymm htie hs hdesc hs' hdesc'

end Symmetric

end Selection
