/-
# Threads that write to sockets

The threads of `JetsonPerception.Lib.Monitor`, each connected to a client of its own.  What a
thread writes goes into the buffers between the two, which have room for so many bytes; the client
takes bytes out of them when it likes.  A write returns when its last byte is in, so it may be
taken piece by piece while the thread waits.  A client may also break off: the write raises, and
what the thread does next is for another connection.

A write that does not fit waits for its client (`Sockets.Full`), and if the client leaves it at
that it waits for ever (`Full.stays`).  Without the counters these are the threads of the monitor
(`Sockets.run_threads`), and the steps that no client takes part in are the same
(`Sockets.run_of_own`).
-/
import JetsonPerception.Lib.Monitor

namespace Monitor

variable {σ α ω ι : Type}

/-- The bytes that a call writes, which answers say that it has returned, and the room for bytes
that are not taken. -/
structure Wire (α ω : Type) where
  size : ω → ℕ
  returned : α → Bool
  room : ℕ

/-- The threads, with the bytes of the writes that have returned and those that were taken. -/
structure Sockets (σ α ω : Type) where
  threads : Threads σ α ω
  wrote : ℕ → ℕ := fun _ => 0
  taken : ℕ → ℕ := fun _ => 0

inductive SocketEvent (α ι : Type) where
  | thread (e : Event α ι)
  /-- The client of thread `i` takes `n` bytes. -/
  | take (i n : ℕ)

namespace Sockets

/-- The bytes of the write that a thread is at. -/
def pending (w : Wire α ω) (s : Sockets σ α ω) (i : ℕ) : ℕ :=
  match s.threads.prog i with
  | .client call _ => w.size call
  | _ => 0

/-- There is room for the rest of it. -/
def Fits (w : Wire α ω) (s : Sockets σ α ω) (i : ℕ) : Prop :=
  s.wrote i + s.pending w i ≤ s.taken i + w.room

/-- When an event may happen. -/
def guard (w : Wire α ω) (s : Sockets σ α ω) : SocketEvent α ι → Prop
  | .thread (.client i a) =>
      Monitor.guard s.threads (.client i a : Event α ι) ∧ (w.returned a = true → s.Fits w i)
  | .thread e => Monitor.guard s.threads e
  | .take i n => n ≤ w.room ∧ s.taken i + n ≤ s.wrote i + s.pending w i

/-- Where an event leads. -/
def act (w : Wire α ω) (job : ι → Prog σ α ω) (s : Sockets σ α ω) :
    SocketEvent α ι → Sockets σ α ω
  | .thread (.client i a) =>
      { threads := Monitor.act job s.threads (.client i a)
        wrote := Function.update s.wrote i
          (if w.returned a then s.wrote i + s.pending w i else 0)
        taken := Function.update s.taken i (if w.returned a then s.taken i else 0) }
  | .thread e => { s with threads := Monitor.act job s.threads e }
  | .take i n => { s with taken := Function.update s.taken i (s.taken i + n) }

def machine (w : Wire α ω) (job : ι → Prog σ α ω) :
    GuardedMachine (Sockets σ α ω) (SocketEvent α ι) :=
  ⟨guard w, act w job⟩

instance (w : Wire α ω) (s : Sockets σ α ω) (i : ℕ) : Decidable (s.Fits w i) :=
  inferInstanceAs (Decidable (_ ≤ _))

instance (w : Wire α ω) (job : ι → Prog σ α ω) (s : Sockets σ α ω) (x : SocketEvent α ι) :
    Decidable ((machine w job).guard s x) := by
  show Decidable (guard w s x)
  cases x with
  | take i n => dsimp only [guard]; infer_instance
  | thread e =>
      haveI : Decidable (Monitor.guard s.threads e) := decidable_of_iff _ (s.threads.ready_iff e)
      cases e <;> dsimp only [guard] <;> infer_instance

variable {w : Wire α ω} {job : ι → Prog σ α ω} {s t : Sockets σ α ω} {i : ℕ}
  {xs : List (SocketEvent α ι)}

/-! ## The threads -/

theorem guard_thread {e : Event α ι} (h : guard w s (.thread e)) : Monitor.guard s.threads e := by
  cases e with
  | client i a => exact h.1
  | _ => exact h

theorem act_thread (w : Wire α ω) (job : ι → Prog σ α ω) (s : Sockets σ α ω) (e : Event α ι) :
    (act w job s (.thread e)).threads = Monitor.act job s.threads e := by
  cases e <;> rfl

/-- A condition on the steps of the threads. -/
def OfThreads (C : Threads σ α ω → Event α ι → Prop) (s : Sockets σ α ω) :
    SocketEvent α ι → Prop
  | .thread e => C s.threads e
  | .take _ _ => True

/-- Without the clients' part it is a run of the threads. -/
theorem run_threads {C : Threads σ α ω → Event α ι → Prop}
    (h : ((machine w job).restrict (OfThreads C)).Run s xs t) :
    ∃ es, ((Monitor.machine job).restrict C).Run s.threads es t.threads := by
  have hstep : ∀ (s : Sockets σ α ω) (x : SocketEvent α ι) (r : Threads σ α ω), r = s.threads →
      ((machine w job).restrict (OfThreads C)).guard s x →
      ∃ es r', ((Monitor.machine job).restrict C).Run r es r' ∧ r' = (act w job s x).threads := by
    rintro s x _ rfl ⟨hg, hC⟩
    cases x with
    | thread e =>
        refine ⟨[e], _, .single (M := (Monitor.machine job).restrict C) ⟨guard_thread hg, hC⟩, ?_⟩
        exact (act_thread w job s e).symm
    | take i n => exact ⟨[], _, .refl, rfl⟩
  obtain ⟨es, _, hrun, rfl⟩ := h.simulate hstep rfl
  exact ⟨es, hrun⟩

/-- What the threads do by themselves, they do whatever is in the buffers. -/
theorem run_of_own {D : Sockets σ α ω → SocketEvent α ι → Prop}
    (hD : ∀ s e, Own s.threads e → D s (.thread e)) {u : Threads σ α ω}
    (h : Alone job s.threads u) :
    ∃ xs, ((machine w job).restrict D).Run s xs { s with threads := u } := by
  have hstep : ∀ (v : Threads σ α ω) (e : Event α ι) (r : Sockets σ α ω),
      r = { s with threads := v } → ((Monitor.machine job).restrict Own).guard v e →
      ∃ xs r', ((machine w job).restrict D).Run r xs r' ∧
        r' = { s with threads := Monitor.act job v e } := by
    rintro v e _ rfl ⟨hg, hown⟩
    let r : Sockets σ α ω := { s with threads := v }
    have hguard : guard w r (.thread e) ∧ act w job r (.thread e) =
        { s with threads := Monitor.act job v e } := by
      cases e with
      | start i j | client i a => exact hown.elim
      | _ => exact ⟨hg, rfl⟩
    refine ⟨[.thread e], _, .single (M := (machine w job).restrict D) ⟨hguard.1, ?_⟩, hguard.2⟩
    exact hD r e hown
  obtain ⟨es, hes⟩ := h
  obtain ⟨xs, _, hrun, rfl⟩ := hes.simulate hstep rfl
  exact ⟨xs, hrun⟩

/-! ## Full buffers -/

/-- The thread is at a write that does not fit. -/
def Full (w : Wire α ω) (s : Sockets σ α ω) (i : ℕ) : Prop :=
  s.threads.Waits i ∧ ¬ s.Fits w i

/-- The client of thread `i` neither takes anything nor breaks off. -/
def Ignores (w : Wire α ω) (i : ℕ) (_ : Sockets σ α ω) : SocketEvent α ι → Prop
  | .thread (.client j a) => j = i → w.returned a = true
  | .take j _ => j ≠ i
  | _ => True

theorem fits_congr (hprog : t.threads.prog i = s.threads.prog i) (hwrote : t.wrote i = s.wrote i)
    (htaken : t.taken i = s.taken i) : t.Fits w i ↔ s.Fits w i := by
  rw [Fits, Fits, pending, pending, hprog, hwrote, htaken]

/-- A step of another thread: nothing is written by `i`, or taken from it. -/
theorem Full.of_same (h : Full w s i) (hprog : t.threads.prog i = s.threads.prog i)
    (hwrote : t.wrote i = s.wrote i) (htaken : t.taken i = s.taken i) : Full w t i := by
  refine ⟨?_, fun hfits => h.2 ((fits_congr hprog hwrote htaken).mp hfits)⟩
  rw [Threads.Waits, hprog]
  exact h.1

/-- The thread that waits has the lock. -/
structure Stalled (w : Wire α ω) (s : Sockets σ α ω) (i : ℕ) : Prop where
  full : Full w s i
  holder : s.threads.holder = some i

theorem Stalled.step {x : SocketEvent α ι} (h : Stalled w s i) (hg : guard w s x)
    (hx : Ignores w i s x) : Stalled w (act w job s x) i := by
  obtain ⟨⟨call, k, hp⟩, hfull⟩ := h.full
  -- a step of a thread that is not at a write is another thread's
  have hother : ∀ {j : ℕ} {p : Prog σ α ω}, s.threads.prog j = p → p ≠ .client call k → i ≠ j := by
    rintro j p hj hne rfl
    exact hne (hj.symm.trans hp)
  -- and leaves the thread, and the lock, where they are
  have hgoto : ∀ {j : ℕ} {p q : Prog σ α ω} {shared : σ}, s.threads.prog j = p →
      p ≠ .client call k →
      Stalled w { s with threads := { s.threads.goto j q with shared := shared } } i := by
    intro j p q shared hj hne
    have hij := hother hj hne
    exact ⟨h.full.of_same (s.threads.goto_of_ne q hij) rfl rfl, h.holder⟩
  cases x with
  | take j n =>
      have hij : i ≠ j := Ne.symm hx
      exact ⟨h.full.of_same rfl rfl (Function.update_of_ne hij ..), h.holder⟩
  | thread e =>
      cases e with
      | start j job' =>
          have hj : s.threads.prog j = .done := hg
          exact hgoto hj (by simp)
      | acquire j =>
          have hfree : s.threads.holder = none := hg.1
          rw [h.holder] at hfree
          cases hfree
      | release j =>
          obtain ⟨hheld, k', hj⟩ := hg
          obtain rfl := Option.some.inj (h.holder.symm.trans hheld)
          cases hp.symm.trans hj
      | update j =>
          obtain ⟨f, k', hj⟩ := hg
          simp only [act, Monitor.act, hj]
          exact hgoto hj (by simp)
      | read j =>
          obtain ⟨k', hj⟩ := hg
          simp only [act, Monitor.act, hj]
          exact hgoto hj (by simp)
      | ask j a =>
          obtain ⟨call', k', hj⟩ := hg
          simp only [act, Monitor.act, hj]
          exact hgoto hj (by simp)
      | client j a =>
          obtain ⟨⟨call', k', hj⟩, hfits⟩ := hg
          have hij : i ≠ j := by
            rintro rfl
            exact hfull (hfits (hx rfl))
          refine ⟨h.full.of_same ?_ (Function.update_of_ne hij ..)
            (Function.update_of_ne hij ..), ?_⟩
          · rw [act_thread]
            simp only [Monitor.act, hj]
            exact s.threads.goto_of_ne _ hij
          · rw [act_thread]
            simp only [Monitor.act, hj]
            exact h.holder

/-- **As long as its client ignores it, the thread keeps the lock.** -/
theorem Stalled.stays (h : Stalled w s i)
    (hrun : ((machine w job).restrict (Ignores w i)).Run s xs t) : Stalled w t i :=
  hrun.inv_restrict (fun s => Stalled w s i) (fun _ _ hs hg hx => hs.step hg hx) h

end Sockets

end Monitor
