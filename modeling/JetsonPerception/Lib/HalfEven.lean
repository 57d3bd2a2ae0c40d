/-
# Rounding to the nearest integer, halves to even

The rounding of `lrint` and of Python's `round`, over any ordered field with a floor.
-/
import Mathlib.Algebra.Order.Floor.Ring
import Mathlib.Tactic.Linarith

namespace HalfEven

variable {K : Type} [Field K] [LinearOrder K] [IsStrictOrderedRing K] [FloorRing K]

/-- The nearest integer, the even one of two. -/
def round (x : K) : ℤ :=
  let n := ⌊x⌋
  let r := x - n
  if r < 1 / 2 ∨ (r = 1 / 2 ∧ n % 2 = 0) then n else n + 1

variable {x y : K} {n : ℤ}

/-- Rounding moves by at most a half. -/
theorem round_near (x : K) : (round x : K) - 1 / 2 ≤ x ∧ x ≤ (round x : K) + 1 / 2 := by
  have hle := Int.floor_le x
  have hlt := Int.lt_floor_add_one x
  rw [round]
  split
  case isTrue h =>
      have hr : x - (⌊x⌋ : K) ≤ 1 / 2 := by
        rcases h with h | h
        · exact h.le
        · exact h.1.le
      constructor <;> linarith
  case isFalse h =>
      have hr : 1 / 2 ≤ x - (⌊x⌋ : K) := by
        by_contra hlow
        exact h (.inl (not_le.mp hlow))
      push_cast
      constructor <;> linarith

theorem round_intCast (n : ℤ) : round (n : K) = n := by
  have hzero : (n : K) - (n : K) < 1 / 2 := by
    rw [sub_self]
    norm_num
  rw [round, Int.floor_intCast]
  exact if_pos (.inl hzero)

/-- Rounding keeps the order. -/
theorem round_mono (h : x ≤ y) : round x ≤ round y := by
  have hfloor : ⌊x⌋ ≤ ⌊y⌋ := Int.floor_le_floor h
  rcases hfloor.lt_or_eq with hlt | heq
  · -- at most the next integer, which is already at most the floor of `y`
    have hx : round x ≤ ⌊x⌋ + 1 := by
      rw [round]
      split <;> omega
    have hy : ⌊y⌋ ≤ round y := by
      rw [round]
      split <;> omega
    omega
  · rw [round, round, heq]
    split
    · split <;> omega
    · rename_i hx
      split
      · rename_i hy
        refine absurd ?_ hx
        rcases hy with hy | ⟨hhalf, heven⟩
        · left
          linarith
        · rcases h.lt_or_eq with hlt | rfl
          · left
            linarith
          · exact .inr ⟨hhalf, heven⟩
      · exact le_refl _

theorem le_round (h : (n : K) ≤ x) : n ≤ round x := by
  rw [← round_intCast (K := K) n]
  exact round_mono h

/-- What rounds to a positive integer. -/
theorem one_le_round_iff (x : K) : 1 ≤ round x ↔ 1 / 2 < x := by
  obtain ⟨hlow, hhigh⟩ := round_near x
  constructor
  · intro h
    have hone : (1 : K) ≤ round x := by exact_mod_cast h
    rcases lt_or_eq_of_le (show (1 : K) / 2 ≤ x by linarith) with hlt | heq
    · exact hlt
    · -- a half is rounded to zero, which is even
      have hfloor : ⌊x⌋ = 0 := by
        rw [Int.floor_eq_iff]
        constructor <;> push_cast <;> linarith
      have hround : round x = 0 := by
        rw [round, hfloor]
        refine if_pos (.inr ⟨?_, rfl⟩)
        rw [← heq, Int.cast_zero, sub_zero]
      omega
  · intro h
    have hpos : (0 : K) < round x := by linarith
    have hpos : 0 < round x := by exact_mod_cast hpos
    omega

end HalfEven
