/-
# Threads that share one lock

A program of a thread as a tree: it takes and gives back the one lock, reads and
changes the shared state, asks its surroundings (a clock, a file, a process),
and exchanges something with a client.  The surroundings always answer; a client
may not.  Threads run programs one after another, each chosen from a family of
jobs, and their steps interleave.

A program is *disciplined* when it never takes the lock twice, never waits for a
client while it has it, and gives it back.  As long as only disciplined jobs are
started:

| | |
| :-- | :-- |
| `Kept.not_waiting` | a thread that waits for its client does not hold the lock |
| `Kept.lock_returns` | the lock comes free by the steps of its holder, whatever the clients do |
| `Kept.proceeds` | every thread gets to its end or to its own client, whatever the clients do |
-/
import JetsonPerception.Lib.Machine
import Mathlib.Logic.Function.Basic

namespace Monitor

variable {σ α ω ι : Type}

/-- A program over the shared state `σ`, with calls `ω` and their answers `α`. -/
inductive Prog (σ α ω : Type) where
  | done
  | acquire (k : Prog σ α ω)
  | release (k : Prog σ α ω)
  | update (f : σ → σ) (k : Prog σ α ω)
  | read (k : σ → Prog σ α ω)
  | ask (call : ω) (k : α → Prog σ α ω)
  | client (call : ω) (k : α → Prog σ α ω)

/-- The program is disciplined when it starts with the lock, or without it. -/
def Prog.Disciplined : Prog σ α ω → (held : Bool) → Prop
  | .done, held => held = false
  | .acquire k, held => held = false ∧ k.Disciplined true
  | .release k, held => held = true ∧ k.Disciplined false
  | .update _ k, held => k.Disciplined held
  | .read k, held => ∀ s, (k s).Disciplined held
  | .ask _ k, held => ∀ a, (k a).Disciplined held
  | .client _ k, held => held = false ∧ ∀ a, (k a).Disciplined false

theorem Prog.Disciplined.update {f : σ → σ} {k : Prog σ α ω} {held : Bool}
    (hk : k.Disciplined held) : (Prog.update f k).Disciplined held := hk

theorem Prog.Disciplined.ite {c : Prop} [Decidable c] {p q : Prog σ α ω} {held : Bool}
    (hp : p.Disciplined held) (hq : q.Disciplined held) :
    (if c then p else q).Disciplined held := by
  split
  · exact hp
  · exact hq

/-- The shared state, who has the lock, and what each thread has still to do. -/
structure Threads (σ α ω : Type) where
  shared : σ
  holder : Option ℕ := none
  prog : ℕ → Prog σ α ω := fun _ => .done

inductive Event (α ι : Type) where
  | start (i : ℕ) (job : ι)
  | acquire (i : ℕ) | release (i : ℕ) | update (i : ℕ) | read (i : ℕ)
  | ask (i : ℕ) (a : α)
  | client (i : ℕ) (a : α)

/-- The thread goes on with `p`. -/
def Threads.goto (s : Threads σ α ω) (i : ℕ) (p : Prog σ α ω) : Threads σ α ω :=
  { s with prog := Function.update s.prog i p }

@[simp] theorem Threads.goto_self (s : Threads σ α ω) (i : ℕ) (p : Prog σ α ω) :
    (s.goto i p).prog i = p := Function.update_self ..

theorem Threads.goto_of_ne (s : Threads σ α ω) {i j : ℕ} (p : Prog σ α ω) (h : j ≠ i) :
    (s.goto i p).prog j = s.prog j := Function.update_of_ne h ..

/-- When an event may happen. -/
def guard (s : Threads σ α ω) : Event α ι → Prop
  | .start i _ => s.prog i = .done
  | .acquire i => s.holder = none ∧ ∃ k, s.prog i = .acquire k
  | .release i => s.holder = some i ∧ ∃ k, s.prog i = .release k
  | .update i => ∃ f k, s.prog i = .update f k
  | .read i => ∃ k, s.prog i = .read k
  | .ask i _ => ∃ call k, s.prog i = .ask call k
  | .client i _ => ∃ call k, s.prog i = .client call k

/-- Where an event leads. -/
def act (job : ι → Prog σ α ω) (s : Threads σ α ω) : Event α ι → Threads σ α ω
  | .start i j => s.goto i (job j)
  | .acquire i =>
      match s.prog i with
      | .acquire k => { s.goto i k with holder := some i }
      | _ => s
  | .release i =>
      match s.prog i with
      | .release k => { s.goto i k with holder := none }
      | _ => s
  | .update i =>
      match s.prog i with
      | .update f k => { s.goto i k with shared := f s.shared }
      | _ => s
  | .read i =>
      match s.prog i with
      | .read k => s.goto i (k s.shared)
      | _ => s
  | .ask i a =>
      match s.prog i with
      | .ask _ k => s.goto i (k a)
      | _ => s
  | .client i a =>
      match s.prog i with
      | .client _ k => s.goto i (k a)
      | _ => s

/-- The threads, with the jobs they may be given. -/
def machine (job : ι → Prog σ α ω) : GuardedMachine (Threads σ α ω) (Event α ι) :=
  ⟨guard, act job⟩

/-- What a program does first. -/
inductive Turn where
  | done | acquire | release | update | read | ask | client
  deriving DecidableEq

def Prog.turn : Prog σ α ω → Turn
  | .done => .done
  | .acquire _ => .acquire
  | .release _ => .release
  | .update _ _ => .update
  | .read _ => .read
  | .ask _ _ => .ask
  | .client _ _ => .client

/-- `guard` as a computation. -/
def Threads.ready (s : Threads σ α ω) : Event α ι → Bool
  | .start i _ => (s.prog i).turn = .done
  | .acquire i => s.holder = none ∧ (s.prog i).turn = .acquire
  | .release i => s.holder = some i ∧ (s.prog i).turn = .release
  | .update i => (s.prog i).turn = .update
  | .read i => (s.prog i).turn = .read
  | .ask i _ => (s.prog i).turn = .ask
  | .client i _ => (s.prog i).turn = .client

theorem Threads.ready_iff (s : Threads σ α ω) (e : Event α ι) : s.ready e = true ↔ guard s e := by
  cases e with
  | start i j => cases hp : s.prog i <;> simp [Threads.ready, guard, Prog.turn, hp]
  | acquire i => cases hp : s.prog i <;> simp [Threads.ready, guard, Prog.turn, hp]
  | release i => cases hp : s.prog i <;> simp [Threads.ready, guard, Prog.turn, hp]
  | update i => cases hp : s.prog i <;> simp [Threads.ready, guard, Prog.turn, hp]
  | read i => cases hp : s.prog i <;> simp [Threads.ready, guard, Prog.turn, hp]
  | ask i a => cases hp : s.prog i <;> simp [Threads.ready, guard, Prog.turn, hp]
  | client i a => cases hp : s.prog i <;> simp [Threads.ready, guard, Prog.turn, hp]

instance (job : ι → Prog σ α ω) (s : Threads σ α ω) (e : Event α ι) :
    Decidable ((machine job).guard s e) :=
  decidable_of_iff _ (s.ready_iff e)

/-- The thread waits for its client. -/
def Threads.Waits (s : Threads σ α ω) (i : ℕ) : Prop := ∃ call k, s.prog i = .client call k

/-! ## Discipline -/

/-- Every thread is disciplined from where it is. -/
def Kept (s : Threads σ α ω) : Prop :=
  ∀ i, (s.prog i).Disciplined (decide (s.holder = some i))

/-- A job that is started is disciplined. -/
def Starts (job : ι → Prog σ α ω) (_ : Threads σ α ω) (e : Event α ι) : Prop :=
  ∀ i j, e = .start i j → (job j).Disciplined false

variable {job : ι → Prog σ α ω} {s t u : Threads σ α ω} {i : ℕ}

theorem Kept.init (shared : σ) : Kept (⟨shared, none, fun _ => .done⟩ : Threads σ α ω) :=
  fun _ => rfl

/-- A thread that waits for its client does not hold the lock. -/
theorem Kept.not_waiting (h : Kept s) (hw : s.Waits i) : s.holder ≠ some i := by
  obtain ⟨call, k, hp⟩ := hw
  have hi := h i
  rw [hp] at hi
  exact of_decide_eq_false hi.1

/-- A step of one thread that leaves the lock where it is. -/
theorem Kept.goto (h : Kept s) {p : Prog σ α ω} {shared : σ}
    (hp : p.Disciplined (decide (s.holder = some i))) :
    Kept { s.goto i p with shared := shared } := by
  intro j
  by_cases hj : j = i
  · subst hj
    show ((s.goto j p).prog j).Disciplined _
    rw [Threads.goto_self]
    exact hp
  · show ((s.goto i p).prog j).Disciplined _
    rw [Threads.goto_of_ne s p hj]
    exact h j

/-- A step of one thread that takes the lock, or gives it back. -/
theorem Kept.pass (h : Kept s) {p : Prog σ α ω} {holder : Option ℕ}
    (hp : p.Disciplined (decide (holder = some i)))
    (hothers : ∀ j, j ≠ i → s.holder ≠ some j ∧ holder ≠ some j) :
    Kept { s.goto i p with holder := holder } := by
  intro j
  by_cases hj : j = i
  · subst hj
    show ((s.goto j p).prog j).Disciplined _
    rw [Threads.goto_self]
    exact hp
  · obtain ⟨hold, hnew⟩ := hothers j hj
    have hkept := h j
    rw [decide_eq_false hold] at hkept
    show ((s.goto i p).prog j).Disciplined (decide (holder = some j))
    rw [Threads.goto_of_ne s p hj, decide_eq_false hnew]
    exact hkept

theorem Kept.step (s : Threads σ α ω) (e : Event α ι) (h : Kept s) (hg : guard s e)
    (hC : Starts job s e) : Kept (act job s e) := by
  cases e with
  | start i j =>
      have hdone : s.prog i = .done := hg
      have hi := h i
      rw [hdone] at hi
      have hfree : decide (s.holder = some i) = false := hi
      refine h.goto ?_
      rw [hfree]
      exact hC i j rfl
  | acquire i =>
      obtain ⟨hfree, k, hp⟩ := hg
      have hi := h i
      rw [hp] at hi
      simp only [act, hp]
      refine h.pass (by simpa using hi.2) fun j hj => ?_
      rw [hfree]
      exact ⟨by simp, fun hij => hj (Option.some.inj hij).symm⟩
  | release i =>
      obtain ⟨hheld, k, hp⟩ := hg
      have hi := h i
      rw [hp] at hi
      simp only [act, hp]
      refine h.pass (by simpa using hi.2) fun j hj => ?_
      rw [hheld]
      exact ⟨fun hij => hj (Option.some.inj hij).symm, by simp⟩
  | update i =>
      obtain ⟨f, k, hp⟩ := hg
      have hi := h i
      rw [hp] at hi
      simp only [act, hp]
      exact h.goto hi
  | read i =>
      obtain ⟨k, hp⟩ := hg
      have hi := h i
      rw [hp] at hi
      simp only [act, hp]
      exact h.goto (hi s.shared)
  | ask i a =>
      obtain ⟨call, k, hp⟩ := hg
      have hi := h i
      rw [hp] at hi
      simp only [act, hp]
      exact h.goto (hi a)
  | client i a =>
      obtain ⟨call, k, hp⟩ := hg
      have hi := h i
      rw [hp] at hi
      simp only [act, hp]
      refine h.goto ?_
      rw [hi.1]
      exact hi.2 a

/-! ## Without the clients -/

/-- A thread's own step: no client takes part in it, and no job is started. -/
def Own (_ : Threads σ α ω) : Event α ι → Prop
  | .start .. | .client .. => False
  | _ => True

/-- `t` is reached from `s` by the threads' own steps. -/
def Alone (job : ι → Prog σ α ω) (s t : Threads σ α ω) : Prop :=
  ∃ es, ((machine job).restrict Own).Run s es t

theorem Alone.refl : Alone job s s := ⟨[], .refl⟩

theorem Alone.trans (h : Alone job s t) (h' : Alone job t u) : Alone job s u := by
  obtain ⟨es, hes⟩ := h
  obtain ⟨es', hes'⟩ := h'
  exact ⟨es ++ es', hes.trans hes'⟩

theorem Alone.step {e : Event α ι} (hg : guard s e) (hown : Own s e)
    (h : Alone job (act job s e) t) : Alone job s t := by
  obtain ⟨es, hes⟩ := h
  exact ⟨e :: es, .cons ⟨hg, hown⟩ hes⟩

theorem Alone.kept (h : Alone job s t) (h0 : Kept s) : Kept t := by
  obtain ⟨es, hes⟩ := h
  refine hes.inv_restrict Kept (fun s e hs hg hown => hs.step s e hg ?_) h0
  rintro i j rfl
  exact hown.elim

/-- A disciplined holder gives the lock back by its own steps, and nobody else moves. -/
theorem Prog.Disciplined.returns [Inhabited α] (job : ι → Prog σ α ω) {p : Prog σ α ω} :
    ∀ {s : Threads σ α ω}, s.prog i = p → s.holder = some i → p.Disciplined true →
      ∃ t, Alone job s t ∧ t.holder = none ∧ ∀ j ≠ i, t.prog j = s.prog j := by
  -- one step of the holder, and what it still has to do
  have hgo : ∀ {s u : Threads σ α ω} {e : Event α ι}, guard s e → Own s e → act job s e = u →
      (∀ j ≠ i, u.prog j = s.prog j) →
      (∃ t, Alone job u t ∧ t.holder = none ∧ ∀ j ≠ i, t.prog j = u.prog j) →
      ∃ t, Alone job s t ∧ t.holder = none ∧ ∀ j ≠ i, t.prog j = s.prog j := by
    rintro s u e hg hown rfl hothers ⟨t, halone, hfree, hsame⟩
    exact ⟨t, halone.step hg hown, hfree, fun j hj => (hsame j hj).trans (hothers j hj)⟩
  induction p with
  | done => intro s _ _ hd; exact Bool.noConfusion hd
  | acquire k _ => intro s _ _ hd; exact Bool.noConfusion hd.1
  | client call k _ => intro s _ _ hd; exact Bool.noConfusion hd.1
  | release k _ =>
      intro s hp hheld _
      refine hgo (u := { s.goto i k with holder := none }) (e := .release i) ⟨hheld, k, hp⟩ trivial
        (by simp only [act, hp]) (fun j hj => s.goto_of_ne k hj) ?_
      exact ⟨_, .refl, rfl, fun _ _ => rfl⟩
  | update f k ih =>
      intro s hp hheld hd
      refine hgo (u := { s.goto i k with shared := f s.shared }) (e := .update i) ⟨f, k, hp⟩
        trivial (by simp only [act, hp]) (fun j hj => s.goto_of_ne k hj) ?_
      exact ih (s.goto_self i k) hheld hd
  | read k ih =>
      intro s hp hheld hd
      refine hgo (u := s.goto i (k s.shared)) (e := .read i) ⟨k, hp⟩ trivial
        (by simp only [act, hp]) (fun j hj => s.goto_of_ne _ hj) ?_
      exact ih s.shared (s.goto_self i _) hheld (hd _)
  | ask call k ih =>
      intro s hp hheld hd
      refine hgo (u := s.goto i (k default)) (e := .ask i default) ⟨call, k, hp⟩ trivial
        (by simp only [act, hp]) (fun j hj => s.goto_of_ne _ hj) ?_
      exact ih default (s.goto_self i _) hheld (hd _)

/-- Whoever has the lock, it comes free without a client; the threads that do not hold it stay
where they are. -/
theorem Kept.lock_returns [Inhabited α] (job : ι → Prog σ α ω) (h : Kept s) :
    ∃ t, Alone job s t ∧ t.holder = none ∧ ∀ j, s.holder ≠ some j → t.prog j = s.prog j := by
  cases hh : s.holder with
  | none => exact ⟨s, .refl, hh, fun _ _ => rfl⟩
  | some i =>
      have hi := h i
      rw [hh, decide_eq_true rfl] at hi
      obtain ⟨t, halone, hfree, hsame⟩ := hi.returns job rfl hh
      exact ⟨t, halone, hfree, fun j hj => hsame j fun hij => hj (congrArg some hij.symm)⟩

/-- Every thread gets to the end of its program, or to its own client, without a client. -/
theorem Kept.proceeds [Inhabited α] (job : ι → Prog σ α ω) (h : Kept s) (i : ℕ) :
    ∃ t, Alone job s t ∧ (t.prog i = .done ∨ t.Waits i) := by
  generalize hp : s.prog i = p
  have hgo : ∀ {s : Threads σ α ω} {e : Event α ι} {p : Prog σ α ω}, Kept s → guard s e →
      Own s e → (act job s e).prog i = p →
      (∀ {s}, Kept s → s.prog i = p → ∃ t, Alone job s t ∧ (t.prog i = .done ∨ t.Waits i)) →
      ∃ t, Alone job s t ∧ (t.prog i = .done ∨ t.Waits i) := by
    intro s e p h hg hown hprog ih
    have hstep : Alone job s (act job s e) := .step hg hown .refl
    obtain ⟨t, halone, hend⟩ := ih (hstep.kept h) hprog
    exact ⟨t, hstep.trans halone, hend⟩
  induction p generalizing s with
  | done => exact ⟨s, .refl, .inl hp⟩
  | client call k _ => exact ⟨s, .refl, .inr ⟨call, k, hp⟩⟩
  | acquire k ih =>
      have hi := h i
      rw [hp] at hi
      obtain ⟨t, halone, hfree, hsame⟩ := h.lock_returns job
      have hpt : t.prog i = .acquire k := (hsame i (of_decide_eq_false hi.1)).trans hp
      have hnext : (act job t (.acquire i)).prog i = k := by
        simp only [act, hpt]
        exact t.goto_self i k
      obtain ⟨u, halone', hend⟩ := hgo (e := .acquire i) (halone.kept h) ⟨hfree, k, hpt⟩ trivial
        hnext ih
      exact ⟨u, halone.trans halone', hend⟩
  | release k ih =>
      have hi := h i
      rw [hp] at hi
      refine hgo (e := .release i) h ⟨of_decide_eq_true hi.1, k, hp⟩ trivial ?_ ih
      simp only [act, hp]
      exact s.goto_self i k
  | update f k ih =>
      refine hgo (e := .update i) h ⟨f, k, hp⟩ trivial ?_ ih
      simp only [act, hp]
      exact s.goto_self i k
  | read k ih =>
      refine hgo (e := .read i) h ⟨k, hp⟩ trivial ?_ (ih s.shared)
      simp only [act, hp]
      exact s.goto_self i _
  | ask call k ih =>
      refine hgo (e := .ask i default) h ⟨call, k, hp⟩ trivial ?_ (ih default)
      simp only [act, hp]
      exact s.goto_self i _

end Monitor
