/-
# Contracts on the programs of threads

What can be said of one thread while all the others go on.  A thread sees the states it reads and
the answers to its calls; in order, they are its *transcript*.  A contract keeps notes on the
transcript and says, at each step, what the program may do next.  Whether a program honours a
contract is settled on the program alone, and then:

| | |
| :-- | :-- |
| `Run.honours` | in any run a thread still honours it, with the notes of its transcript |
| `Run.allowed` | all that its transcript says it did was allowed |
| `read_visits` | what a transcript says was read was the shared state at some point of the run |
| `Run.changes` | a preorder that every allowed update respects holds between the ends of any run |
-/
import JetsonPerception.Lib.Monitor

namespace Monitor

variable {σ α ω ι γ : Type}

/-! ## Programs -/

/-- What a thread sees in a step of its own. -/
inductive Seen (σ α ω : Type) where
  | read (s : σ)
  | ask (call : ω) (a : α)
  | client (call : ω) (a : α)
  deriving DecidableEq

/-- What a thread is about to do. -/
inductive Doing (σ ω : Type) where
  | update (f : σ → σ)
  | ask (call : ω)
  | client (call : ω)
  | done

/-- Notes on what a thread has seen, and what they allow it to do. -/
structure Contract (σ α ω γ : Type) where
  note : γ → Seen σ α ω → γ
  allows : γ → Doing σ ω → Prop

/-- On every path the program does only what the notes allow. -/
def Prog.Honours (C : Contract σ α ω γ) : Prog σ α ω → γ → Prop
  | .done, g => C.allows g .done
  | .acquire k, g => k.Honours C g
  | .release k, g => k.Honours C g
  | .update f k, g => C.allows g (.update f) ∧ k.Honours C g
  | .read k, g => ∀ s, (k s).Honours C (C.note g (.read s))
  | .ask call k, g => C.allows g (.ask call) ∧ ∀ a, (k a).Honours C (C.note g (.ask call a))
  | .client call k, g =>
      C.allows g (.client call) ∧ ∀ a, (k a).Honours C (C.note g (.client call a))

theorem Prog.Honours.ite {C : Contract σ α ω γ} {c : Prop} [Decidable c] {p q : Prog σ α ω} {g : γ}
    (hp : c → p.Honours C g) (hq : ¬ c → q.Honours C g) : (if c then p else q).Honours C g := by
  split
  case isTrue h => exact hp h
  case isFalse h => exact hq h

/-- A contract that allows more and notes less. -/
theorem Prog.Honours.weaken {γ' : Type} {C : Contract σ α ω γ} {C' : Contract σ α ω γ'} (φ : γ → γ')
    (hnote : ∀ g x, C'.note (φ g) x = φ (C.note g x))
    (hallows : ∀ g d, C.allows g d → C'.allows (φ g) d) {p : Prog σ α ω} {g : γ}
    (h : p.Honours C g) : p.Honours C' (φ g) := by
  induction p generalizing g with
  | done => exact hallows _ _ h
  | acquire k ih => exact ih h
  | release k ih => exact ih h
  | update f k ih => exact ⟨hallows _ _ h.1, ih h.2⟩
  | read k ih =>
      intro s
      rw [hnote]
      exact ih s (h s)
  | ask call k ih =>
      refine ⟨hallows _ _ h.1, fun a => ?_⟩
      rw [hnote]
      exact ih a (h.2 a)
  | client call k ih =>
      refine ⟨hallows _ _ h.1, fun a => ?_⟩
      rw [hnote]
      exact ih a (h.2 a)

/-! ## Transcripts -/

/-- What the thread `i` sees when the event happens. -/
def Threads.sees (s : Threads σ α ω) (i : ℕ) : Event α ι → Option (Seen σ α ω)
  | .read j => if j = i then some (.read s.shared) else none
  | .ask j a =>
      match s.prog i with
      | .ask call _ => if j = i then some (.ask call a) else none
      | _ => none
  | .client j a =>
      match s.prog i with
      | .client call _ => if j = i then some (.client call a) else none
      | _ => none
  | _ => none

/-- What the thread `i` sees along the events, from `s` on. -/
def transcript (job : ι → Prog σ α ω) (i : ℕ) :
    Threads σ α ω → List (Event α ι) → List (Seen σ α ω)
  | _, [] => []
  | s, e :: es => (s.sees i e).toList ++ transcript job i (act job s e) es

/-- The shared state is `x` at some point along the events, from `s` on. -/
def Visits (job : ι → Prog σ α ω) (s : Threads σ α ω) (es : List (Event α ι)) (x : σ) : Prop :=
  ∃ es₁ es₂, es = es₁ ++ es₂ ∧ (es₁.foldl (act job) s).shared = x

variable {job : ι → Prog σ α ω} {s t : Threads σ α ω} {es es' : List (Event α ι)} {i : ℕ} {x y : σ}

theorem transcript_append : ∀ {s : Threads σ α ω} {es : List (Event α ι)},
    transcript job i s (es ++ es') =
      transcript job i s es ++ transcript job i (es.foldl (act job) s) es'
  | _, [] => rfl
  | s, e :: es => by
      rw [List.cons_append, transcript, transcript, transcript_append, List.append_assoc]
      rfl

theorem Visits.cons {e : Event α ι} (h : Visits job (act job s e) es x) :
    Visits job s (e :: es) x := by
  obtain ⟨es₁, es₂, rfl, hx⟩ := h
  exact ⟨e :: es₁, es₂, rfl, hx⟩

/-- What a thread reads is the shared state of that moment. -/
theorem read_visits : ∀ {s : Threads σ α ω} {es : List (Event α ι)},
    .read x ∈ transcript job i s es → Visits job s es x := by
  intro s es
  induction es generalizing s with
  | nil => intro h; cases h
  | cons e es ih =>
      intro h
      rcases List.mem_append.mp h with h | h
      · refine ⟨[], e :: es, rfl, ?_⟩
        cases e with
        | read j =>
            by_cases hj : j = i <;> simp [Threads.sees, hj] at h
            exact h.symm
        | ask j a => cases hp : s.prog i <;> simp [Threads.sees, hp] at h
        | client j a => cases hp : s.prog i <;> simp [Threads.sees, hp] at h
        | _ => simp [Threads.sees] at h
      · exact (ih h).cons

/-! ## A thread and its contract -/

variable {C : Contract σ α ω γ} {g : γ}

/-- The thread `j` goes on with `p`. -/
theorem Prog.Honours.goto {j : ℕ} {p : Prog σ α ω} {g' : γ} (h : (s.prog i).Honours C g)
    (hself : j = i → p.Honours C g') (hother : j ≠ i → g' = g) :
    ((s.goto j p).prog i).Honours C g' := by
  by_cases hj : j = i
  · subst hj
    rw [s.goto_self]
    exact hself rfl
  · rw [s.goto_of_ne p (Ne.symm hj), hother hj]
    exact h

/-- A step of any thread, this one or another. -/
theorem Prog.Honours.step {e : Event α ι} (h : (s.prog i).Honours C g) (hg : guard s e)
    (hi : ∀ j, e ≠ .start i j) :
    ((act job s e).prog i).Honours C ((s.sees i e).toList.foldl C.note g) := by
  cases e with
  | start j job' =>
      refine h.goto (fun hj => ?_) fun _ => rfl
      subst hj
      exact absurd rfl (hi job')
  | acquire j =>
      obtain ⟨-, k, hp⟩ := hg
      simp only [act, hp]
      refine h.goto (fun hj => ?_) fun _ => rfl
      subst hj
      rw [hp] at h
      exact h
  | release j =>
      obtain ⟨-, k, hp⟩ := hg
      simp only [act, hp]
      refine h.goto (fun hj => ?_) fun _ => rfl
      subst hj
      rw [hp] at h
      exact h
  | update j =>
      obtain ⟨f, k, hp⟩ := hg
      simp only [act, hp]
      refine h.goto (fun hj => ?_) fun _ => rfl
      subst hj
      rw [hp] at h
      exact h.2
  | read j =>
      obtain ⟨k, hp⟩ := hg
      simp only [act, hp]
      refine h.goto (fun hj => ?_) fun hj => ?_
      · subst hj
        rw [hp] at h
        simpa [Threads.sees] using h s.shared
      · simp [Threads.sees, hj]
  | ask j a =>
      obtain ⟨call, k, hp⟩ := hg
      simp only [act, hp]
      refine h.goto (fun hj => ?_) fun hj => ?_
      · subst hj
        rw [hp] at h
        simpa [Threads.sees, hp] using h.2 a
      · cases hpi : s.prog i <;> simp [Threads.sees, hpi, hj]
  | client j a =>
      obtain ⟨call, k, hp⟩ := hg
      simp only [act, hp]
      refine h.goto (fun hj => ?_) fun hj => ?_
      · subst hj
        rw [hp] at h
        simpa [Threads.sees, hp] using h.2 a
      · cases hpi : s.prog i <;> simp [Threads.sees, hpi, hj]

/-- **A thread honours its contract** as long as it is not given another job, whatever the other
threads do. -/
theorem Run.honours (h : (machine job).Run s es t) (hi : ∀ j, .start i j ∉ es)
    (h0 : (s.prog i).Honours C g) :
    (t.prog i).Honours C ((transcript job i s es).foldl C.note g) := by
  induction h with
  | refl => exact h0
  | @snoc es u e hrun hg ih =>
      have hu : u = es.foldl (act job) s := hrun.eq_foldl
      have hes : ∀ j, .start i j ∉ es := by
        intro j hj
        exact hi j (List.mem_append_left _ hj)
      have he : ∀ j, e ≠ .start i j := by
        rintro j rfl
        exact hi j (by simp)
      rw [transcript_append, ← hu, List.foldl_append, transcript, transcript, List.append_nil]
      exact (ih hes).step hg he

/-- What was done for a thread to see this. -/
def Contract.permits (C : Contract σ α ω γ) (g : γ) : Seen σ α ω → Prop
  | .read _ => True
  | .ask call _ => C.allows g (.ask call)
  | .client call _ => C.allows g (.client call)

/-- Every call of a transcript was allowed when it was made. -/
def Contract.Allowed (C : Contract σ α ω γ) : γ → List (Seen σ α ω) → Prop
  | _, [] => True
  | g, x :: xs => C.permits g x ∧ C.Allowed (C.note g x) xs

theorem Contract.allowed_append {xs ys : List (Seen σ α ω)} : ∀ {g : γ},
    C.Allowed g (xs ++ ys) ↔ C.Allowed g xs ∧ C.Allowed (xs.foldl C.note g) ys := by
  induction xs with
  | nil => simp [Contract.Allowed]
  | cons x xs ih =>
      intro g
      rw [List.cons_append, Contract.Allowed, Contract.Allowed, ih, List.foldl_cons, and_assoc]

/-- What is kept by all that is allowed. -/
theorem Contract.Allowed.inv {I : γ → Prop} (hI : ∀ g x, I g → C.permits g x → I (C.note g x))
    {xs : List (Seen σ α ω)} : ∀ {g : γ}, C.Allowed g xs → I g → I (xs.foldl C.note g) := by
  induction xs with
  | nil => exact fun _ hg => hg
  | cons x xs ih => exact fun h hg => ih h.2 (hI _ _ hg h.1)

theorem Prog.Honours.sees {e : Event α ι} (h : (s.prog i).Honours C g) (hg : guard s e) :
    C.Allowed g (s.sees i e).toList := by
  cases e with
  | read j =>
      by_cases hj : j = i <;> simp [Threads.sees, hj, Contract.Allowed, Contract.permits]
  | ask j a =>
      obtain ⟨call, k, hp⟩ := hg
      by_cases hj : j = i
      · subst hj
        rw [hp] at h
        simpa [Threads.sees, hp, Contract.Allowed, Contract.permits] using h.1
      · cases hpi : s.prog i <;> simp [Threads.sees, hpi, hj, Contract.Allowed]
  | client j a =>
      obtain ⟨call, k, hp⟩ := hg
      by_cases hj : j = i
      · subst hj
        rw [hp] at h
        simpa [Threads.sees, hp, Contract.Allowed, Contract.permits] using h.1
      · cases hpi : s.prog i <;> simp [Threads.sees, hpi, hj, Contract.Allowed]
  | _ => trivial

/-- **What a thread does was allowed.** -/
theorem Run.allowed (h : (machine job).Run s es t) (hi : ∀ j, .start i j ∉ es)
    (h0 : (s.prog i).Honours C g) : C.Allowed g (transcript job i s es) := by
  induction h with
  | refl => trivial
  | @snoc es u e hrun hg ih =>
      have hu : u = es.foldl (act job) s := hrun.eq_foldl
      have hes : ∀ j, .start i j ∉ es := by
        intro j hj
        exact hi j (List.mem_append_left _ hj)
      rw [transcript_append, ← hu, Contract.allowed_append, transcript, transcript, List.append_nil]
      exact ⟨ih hes, (Run.honours hrun hes h0).sees hg⟩

/-! ## What all threads together do to the state -/

/-- Every thread honours the contract, with some notes. -/
def AllHonour (C : Contract σ α ω γ) (s : Threads σ α ω) : Prop :=
  ∀ i, ∃ g, (s.prog i).Honours C g

/-- A job that is started honours the contract. -/
def StartsHonour (C : Contract σ α ω γ) (job : ι → Prog σ α ω) (_ : Threads σ α ω)
    (e : Event α ι) : Prop :=
  ∀ i j, e = .start i j → ∃ g, (job j).Honours C g

theorem AllHonour.step {e : Event α ι} (h : AllHonour C s) (hg : guard s e)
    (hC : StartsHonour C job s e) : AllHonour C (act job s e) := by
  intro i
  by_cases hi : ∃ j, e = .start i j
  · obtain ⟨j, rfl⟩ := hi
    obtain ⟨g, hj⟩ := hC i j rfl
    refine ⟨g, ?_⟩
    show ((s.goto i (job j)).prog i).Honours C g
    rw [s.goto_self]
    exact hj
  · obtain ⟨g, hp⟩ := h i
    exact ⟨_, hp.step hg fun j hj => hi ⟨j, hj⟩⟩

/-- A step changes the shared state by an update that is allowed, or not at all. -/
theorem AllHonour.changes {e : Event α ι} (h : AllHonour C s) (hg : guard s e) :
    (act job s e).shared = s.shared ∨
      ∃ g f, C.allows g (.update f) ∧ (act job s e).shared = f s.shared := by
  cases e with
  | start i j => exact .inl rfl
  | acquire i =>
      obtain ⟨-, k, hp⟩ := hg
      simp only [act, hp]
      exact .inl rfl
  | release i =>
      obtain ⟨-, k, hp⟩ := hg
      simp only [act, hp]
      exact .inl rfl
  | update i =>
      obtain ⟨f, k, hp⟩ := hg
      obtain ⟨g, hi⟩ := h i
      rw [hp] at hi
      simp only [act, hp]
      exact .inr ⟨g, f, hi.1, rfl⟩
  | read i =>
      obtain ⟨k, hp⟩ := hg
      simp only [act, hp]
      exact .inl rfl
  | ask i a =>
      obtain ⟨call, k, hp⟩ := hg
      simp only [act, hp]
      exact .inl rfl
  | client i a =>
      obtain ⟨call, k, hp⟩ := hg
      simp only [act, hp]
      exact .inl rfl

/-- A preorder that the allowed updates respect. -/
structure Respects (C : Contract σ α ω γ) (R : σ → σ → Prop) : Prop where
  refl : ∀ x, R x x
  trans : ∀ x y z, R x y → R y z → R x z
  update : ∀ g f, C.allows g (.update f) → ∀ x, R x (f x)

variable {R : σ → σ → Prop}

theorem Run.changes (hR : Respects C R)
    (h : ((machine job).restrict (StartsHonour C job)).Run s es t) (h0 : AllHonour C s) :
    R s.shared t.shared ∧ AllHonour C t := by
  refine h.inv_restrict (fun t => R s.shared t.shared ∧ AllHonour C t) ?_ ⟨hR.refl _, h0⟩
  rintro u e ⟨hsu, hall⟩ hg hC
  refine ⟨?_, hall.step hg hC⟩
  rcases hall.changes hg with hsame | ⟨g, f, hallows, hf⟩
  · show R s.shared (act job u e).shared
    rw [hsame]
    exact hsu
  · show R s.shared (act job u e).shared
    rw [hf]
    exact hR.trans _ _ _ hsu (hR.update g f hallows _)

end Monitor
