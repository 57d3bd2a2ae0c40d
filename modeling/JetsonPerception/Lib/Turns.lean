/-
# Turn after turn

A worker takes one input after another: in each turn it changes its memory, sends some outputs,
and goes on or breaks off with a fault, for good.

| | |
| :-- | :-- |
| `mem_run` | every output was sent in some turn, from a memory that the earlier inputs made |
| `fault_run` | so is the fault |
| `Simulates.run` | workers that agree turn by turn, on what matters of the memory, agree on runs |
-/
import Mathlib.Data.List.Basic
import Mathlib.Data.Nat.Notation

namespace Turns

variable {μ ν ι ω φ : Type}

/-- What a turn leaves in memory, what it sends, and its fault if it breaks off. -/
structure Turn (μ ω φ : Type) where
  memory : μ
  sent : List ω := []
  fault : Option φ := none

/-- All turns of a list of inputs, up to the first fault. -/
def run (step : μ → ι → Turn μ ω φ) : μ → List ι → Turn μ ω φ
  | m, [] => { memory := m }
  | m, i :: is =>
      match (step m i).fault with
      | some f => { step m i with fault := some f }
      | none =>
          let rest := run step (step m i).memory is
          { rest with sent := (step m i).sent ++ rest.sent }

variable {step : μ → ι → Turn μ ω φ} {m : μ} {i : ι} {is : List ι}

theorem run_cons_fault {f : φ} (h : (step m i).fault = some f) :
    run step m (i :: is) = step m i := by
  rw [run, h]
  dsimp only
  rw [← h]

theorem run_cons (h : (step m i).fault = none) :
    run step m (i :: is) =
      { memory := (run step (step m i).memory is).memory
        sent := (step m i).sent ++ (run step (step m i).memory is).sent
        fault := (run step (step m i).memory is).fault } := by
  rw [run, h]

/-- What the first turn sends is sent. -/
theorem mem_run_cons {o : ω} (h : o ∈ (step m i).sent) : o ∈ (run step m (i :: is)).sent := by
  cases hi : (step m i).fault with
  | some f =>
      rw [run_cons_fault hi]
      exact h
  | none =>
      rw [run_cons hi]
      exact List.mem_append_left _ h

/-- An output is sent in some turn, and the inputs before it were got through. -/
theorem mem_run {o : ω} : ∀ {is : List ι} {m : μ}, o ∈ (run step m is).sent →
    ∃ before i after, is = before ++ i :: after ∧ (run step m before).fault = none ∧
      o ∈ (step (run step m before).memory i).sent := by
  intro is
  induction is with
  | nil => intro m h; cases h
  | cons i is ih =>
      intro m h
      have hfirst : o ∈ (step m i).sent → ∃ before i' after, i :: is = before ++ i' :: after ∧
          (run step m before).fault = none ∧ o ∈ (step (run step m before).memory i').sent :=
        fun h => ⟨[], i, is, rfl, rfl, h⟩
      cases hi : (step m i).fault with
      | some f =>
          rw [run_cons_fault hi] at h
          exact hfirst h
      | none =>
          rw [run_cons hi] at h
          rcases List.mem_append.mp h with h | h
          · exact hfirst h
          · obtain ⟨before, i', after, rfl, hfault, ho⟩ := ih h
            refine ⟨i :: before, i', after, rfl, ?_, ?_⟩
            · rw [run_cons hi]
              exact hfault
            · rw [run_cons hi]
              exact ho

/-- A fault is that of some turn, and the inputs before it were got through. -/
theorem fault_run {f : φ} : ∀ {is : List ι} {m : μ}, (run step m is).fault = some f →
    ∃ before i after, is = before ++ i :: after ∧ (run step m before).fault = none ∧
      (step (run step m before).memory i).fault = some f := by
  intro is
  induction is with
  | nil => intro m h; cases h
  | cons i is ih =>
      intro m h
      cases hi : (step m i).fault with
      | some f' =>
          rw [run_cons_fault hi] at h
          exact ⟨[], i, is, rfl, rfl, h⟩
      | none =>
          rw [run_cons hi] at h
          obtain ⟨before, i', after, rfl, hfault, hf⟩ := ih h
          refine ⟨i :: before, i', after, rfl, ?_, ?_⟩
          · rw [run_cons hi]
            exact hfault
          · rw [run_cons hi]
            exact hf

/-! ## What matters of the memory -/

/-- `step'` does on the view of the memory what `step` does on the memory. -/
def Simulates (view : μ → ν) (step : μ → ι → Turn μ ω φ) (step' : ν → ι → Turn ν ω φ) : Prop :=
  ∀ m i, step' (view m) i = ⟨view (step m i).memory, (step m i).sent, (step m i).fault⟩

theorem Simulates.run {view : μ → ν} {step' : ν → ι → Turn ν ω φ}
    (h : Simulates view step step') : ∀ {is : List ι} {m : μ},
    Turns.run step' (view m) is =
      ⟨view (Turns.run step m is).memory, (Turns.run step m is).sent,
        (Turns.run step m is).fault⟩ := by
  intro is
  induction is with
  | nil => intro m; rfl
  | cons i is ih =>
      intro m
      have hi := h m i
      cases hfault : (step m i).fault with
      | some f =>
          rw [hfault] at hi
          have hfault' : (step' (view m) i).fault = some f := by rw [hi]
          rw [run_cons_fault hfault', run_cons_fault hfault, hi, hfault]
      | none =>
          rw [hfault] at hi
          have hfault' : (step' (view m) i).fault = none := by rw [hi]
          rw [run_cons hfault', run_cons hfault, hi, ih]

end Turns
