/-
# Guarded machines and their runs

A guarded machine is a state type, an event type, a guard saying which events
may happen in which states, and the state each event leads to.  Events name
what happened, environment choices included, so a run is determined by its
starting state and its list of events, and anything that counts or remembers
events is a fold over that list (a *tally*) and needs no ghost field in the
state.

The rules the developments on top of this file use:

| | |
| :-- | :-- |
| `Run.visit` | the state in which a given event of a run happened |
| `Run.inv` | an invariant kept by every step holds after every run |
| `Run.tally` | the same for a relation between a tally of the events and the state |
| `Run.count_le` | a measure that pays for some events bounds how many a run has |
| `restrict`, `Run.restrict_of` | runs whose every step meets a side condition |
| `Run.inv_restrict` | an invariant kept by the steps that meet it |
| `Run.restrict_iff_always` | when that side condition is exactly what safety needs |
| `Run.simulate` | a run is followed, step by step, by a run of another machine |
| `Admits`, `Run.of_admits` | a list of events replayed by evaluation |
-/
import Mathlib.Data.List.Induction
import Mathlib.Data.Int.Notation
import Mathlib.Data.Nat.Notation

/-- States `σ`, events `ε`: when an event may happen and where it leads. -/
structure GuardedMachine (σ ε : Type) where
  guard : σ → ε → Prop
  act : σ → ε → σ

namespace GuardedMachine

variable {σ ε : Type}

/-- `M.Run s es t`: from `s`, the events `es` happen in order and lead to `t`. -/
inductive Run (M : GuardedMachine σ ε) (s : σ) : List ε → σ → Prop
  | refl : Run M s [] s
  | snoc {es : List ε} {t : σ} (e : ε) :
      Run M s es t → M.guard t e → Run M s (es ++ [e]) (M.act t e)

/-- The same machine, where a step must also meet the side condition `C`. -/
def restrict (M : GuardedMachine σ ε) (C : σ → ε → Prop) : GuardedMachine σ ε where
  guard s e := M.guard s e ∧ C s e
  act := M.act

variable {M : GuardedMachine σ ε} {s t u : σ} {es es' : List ε}

/-! ## Composing and splitting runs -/

theorem Run.single {e : ε} (h : M.guard s e) : M.Run s [e] (M.act s e) :=
  Run.refl.snoc e h

theorem Run.trans (h : M.Run s es t) (h' : M.Run t es' u) : M.Run s (es ++ es') u := by
  induction h' with
  | refl => rw [List.append_nil]; exact h
  | snoc e _ hg ih => rw [← List.append_assoc]; exact ih.snoc e hg

theorem Run.cons {e : ε} (hg : M.guard s e) (h : M.Run (M.act s e) es t) :
    M.Run s (e :: es) t :=
  (Run.single hg).trans h

/-- The last step of a run. -/
theorem Run.unsnoc {e : ε} (h : M.Run s (es ++ [e]) t) :
    ∃ u, M.Run s es u ∧ M.guard u e ∧ t = M.act u e := by
  generalize hl : es ++ [e] = l at h
  cases h with
  | refl => exact absurd hl (by simp)
  | @snoc es₀ u e₀ h₀ hg =>
      obtain ⟨rfl, rfl⟩ := List.append_singleton_inj.mp hl
      exact ⟨u, h₀, hg, rfl⟩

/-- A run of `es ++ es'` passes through a state between the two. -/
theorem Run.split : ∀ {es' : List ε} {t : σ}, M.Run s (es ++ es') t →
    ∃ u, M.Run s es u ∧ M.Run u es' t := by
  intro es'
  induction es' using List.reverseRecOn with
  | nil => intro t h; exact ⟨t, by simpa using h, .refl⟩
  | append_singleton es' e ih =>
      intro t h
      rw [← List.append_assoc] at h
      obtain ⟨u, hu, hg, rfl⟩ := h.unsnoc
      obtain ⟨v, hv, hv'⟩ := ih hu
      exact ⟨v, hv, hv'.snoc e hg⟩

/-- Events determine the run. -/
theorem Run.det (h : M.Run s es t) : ∀ {u : σ}, M.Run s es u → t = u := by
  induction h with
  | refl =>
      intro u h'
      generalize hl : ([] : List ε) = l at h'
      cases h' with
      | refl => rfl
      | snoc e _ _ => exact absurd hl (by simp)
  | snoc e _ _ ih =>
      intro u h'
      obtain ⟨v, hv, _, rfl⟩ := h'.unsnoc
      rw [ih hv]

theorem Run.eq_foldl (h : M.Run s es t) : t = es.foldl M.act s := by
  induction h with
  | refl => rfl
  | snoc e _ _ ih => rw [List.foldl_append, ← ih]; rfl

/-- The state in which an event of the run happened. -/
theorem Run.visit {e : ε} (h : M.Run s (es ++ e :: es') t) :
    ∃ u, M.Run s es u ∧ M.guard u e ∧ M.Run (M.act u e) es' t := by
  obtain ⟨u, hu, hrest⟩ := h.split
  rw [← List.singleton_append] at hrest
  obtain ⟨v, hv, hv'⟩ := hrest.split
  rw [← List.nil_append [e]] at hv
  obtain ⟨w, hw, hg, rfl⟩ := hv.unsnoc
  obtain rfl := hw.det .refl
  exact ⟨w, hu, hg, hv'⟩

/-! ## Invariants and tallies -/

/-- An invariant kept by every step holds after every run. -/
theorem Run.inv (I : σ → Prop) (hstep : ∀ s e, I s → M.guard s e → I (M.act s e))
    (h0 : I s) (h : M.Run s es t) : I t := by
  induction h with
  | refl => exact h0
  | snoc e _ hg ih => exact hstep _ e ih hg

/-- A relation between a tally of the events and the state, kept by every step,
holds after every run. -/
theorem Run.tally {γ : Type} (add : γ → ε → γ) (I : γ → σ → Prop)
    (hstep : ∀ g s e, I g s → M.guard s e → I (add g e) (M.act s e))
    {g : γ} (h0 : I g s) (h : M.Run s es t) : I (es.foldl add g) t := by
  induction h with
  | refl => exact h0
  | snoc e _ hg ih => rw [List.foldl_append]; exact hstep _ _ e ih hg

/-- If every step keeps `I`, and every event that `p` counts is paid for out of the measure
`μ`, a run has at most as many of them as `μ` was worth at its start. -/
theorem Run.count_le (I : σ → Prop) (μ : σ → ℤ) (p : ε → Bool)
    (hI : ∀ s e, I s → M.guard s e → I (M.act s e))
    (hpay : ∀ s e, I s → M.guard s e → (if p e then 1 else 0) + μ (M.act s e) ≤ μ s)
    (h0 : I s) (h : M.Run s es t) : es.countP p + μ t ≤ μ s := by
  induction h with
  | refl => simp
  | snoc e hr hg ih =>
      have hstep := hpay _ e (hr.inv I hI h0) hg
      rw [List.countP_append, List.countP_singleton]
      split at hstep <;> simp_all <;> omega

/-! ## Runs under a side condition -/

section Restrict

variable {C : σ → ε → Prop}

theorem Run.of_restrict (h : (M.restrict C).Run s es t) : M.Run s es t := by
  induction h with
  | refl => exact .refl
  | snoc e _ hg ih => exact ih.snoc e hg.1

theorem Run.restrict_of (hC : ∀ s, ∀ e ∈ es, C s e) (h : M.Run s es t) :
    (M.restrict C).Run s es t := by
  induction h with
  | refl => exact .refl
  | @snoc es₀ _ e _ hg ih =>
      have hC₀ : ∀ s, ∀ e ∈ es₀, C s e := fun s e he => hC s e (List.mem_append_left _ he)
      exact (ih hC₀).snoc e ⟨hg, hC _ e (by simp)⟩

/-- An invariant that the steps meeting the side condition keep. -/
theorem Run.inv_restrict (I : σ → Prop)
    (hstep : ∀ s e, I s → M.guard s e → C s e → I (M.act s e)) (h0 : I s)
    (h : (M.restrict C).Run s es t) : I t := by
  refine h.inv I ?_ h0
  intro s e hs hg
  exact hstep s e hs hg.1 hg.2

/-- When a safe run under the side condition stays safe, and the first step that
breaks the condition makes the state unsafe, the condition is exactly what
safety of a whole run needs. -/
theorem Run.restrict_iff_always {Safe : σ → Prop}
    (hsafe : ∀ es t, (M.restrict C).Run s es t → Safe t)
    (hbreak : ∀ es t e, (M.restrict C).Run s es t → M.guard t e → ¬ C t e →
      ¬ Safe (M.act t e))
    (h : M.Run s es t) :
    (∀ es₁ es₂ u, es = es₁ ++ es₂ → M.Run s es₁ u → Safe u) ↔ (M.restrict C).Run s es t := by
  constructor
  · intro hall
    induction h with
    | refl => exact .refl
    | snoc e hr hg ih =>
        have hpre := ih fun es₁ es₂ u hes hu => hall es₁ (es₂ ++ [e]) u (by simp [hes]) hu
        refine hpre.snoc e ⟨hg, ?_⟩
        by_contra hC
        exact hbreak _ _ e hpre hg hC (hall _ [] _ (by simp) (hr.snoc e hg))
  · intro hr es₁ es₂ u hes hu
    subst hes
    obtain ⟨v, hv, -⟩ := hr.split
    obtain rfl := hv.of_restrict.det hu
    exact hsafe es₁ v hv

end Restrict

/-! ## Two machines -/

/-- If each step of `M` is followed by steps of `N`, or by none, so is each run. -/
theorem Run.simulate {τ δ : Type} {N : GuardedMachine τ δ} {R : σ → τ → Prop} {r : τ}
    (hstep : ∀ s e r, R s r → M.guard s e → ∃ ds r', N.Run r ds r' ∧ R (M.act s e) r')
    (h : M.Run s es t) (h0 : R s r) : ∃ ds r', N.Run r ds r' ∧ R t r' := by
  induction h with
  | refl => exact ⟨[], r, .refl, h0⟩
  | snoc e _ hg ih =>
      obtain ⟨ds, r', hrun, hr⟩ := ih
      obtain ⟨ds', r'', hrun', hr'⟩ := hstep _ e r' hr hg
      exact ⟨ds ++ ds', r'', hrun.trans hrun', hr'⟩

/-! ## Replaying a list of events -/

/-- Every event of the list may happen when its turn comes. -/
def Admits (M : GuardedMachine σ ε) : σ → List ε → Prop
  | _, [] => True
  | s, e :: es => M.guard s e ∧ M.Admits (M.act s e) es

instance decAdmits [∀ s e, Decidable (M.guard s e)] :
    ∀ (s : σ) (es : List ε), Decidable (M.Admits s es)
  | _, [] => isTrue trivial
  | s, e :: es =>
      haveI := decAdmits (M.act s e) es
      inferInstanceAs (Decidable (M.guard s e ∧ M.Admits (M.act s e) es))

theorem Run.of_admits : ∀ {es : List ε} {s : σ}, M.Admits s es →
    M.Run s es (es.foldl M.act s)
  | [], _, _ => .refl
  | _ :: _, _, h => .cons h.1 (Run.of_admits h.2)

end GuardedMachine
