/-
# Threads that follow a protocol

A part of the state that is changed under the lock only stands still for whoever has the lock: what
its holder has read of it is still so at its next step.  A `Protocol` names such a part, the stages
of a thread, and what leads from one stage to the next.  Whether a program follows it is settled on
the program alone (`Prog.Follows`), the part being known as long as the program has the lock.

Then in any run every thread is at some stage of the protocol, and each step of a thread is a move
from its stage, made with the part as it really is (`Following.step`).  So the stages, and the
part, are an account of the whole run: whatever the moves do to an abstract state, the threads do.
-/
import JetsonPerception.Lib.Monitor

namespace Monitor

variable {σ α ω ι β τ : Type}

/-! ## Programs -/

/-- What a thread does, as far as a protocol goes: with the lock, it knows the part. -/
inductive Deed (α ω ι β : Type) where
  | start (job : ι)
  | acquire
  | release (b : β)
  | update (b b' : β)
  | ask (known : Option β) (call : ω) (a : α)

/-- The part of the state that the lock is for, the stages, and the moves between them. -/
structure Protocol (σ α ω ι β τ : Type) where
  part : σ → β
  /-- Where a thread may end. -/
  rests : τ → Prop
  moves : τ → Deed α ω ι β → τ → Prop

/-- From this stage, and with this knowledge of the part, the program moves as it may, and leaves
the part alone without the lock. -/
def Prog.Follows (P : Protocol σ α ω ι β τ) : Prog σ α ω → τ → Option β → Prop
  | .done, l, known => known = none ∧ P.rests l
  | .acquire k, l, known =>
      known = none ∧ ∃ l', P.moves l .acquire l' ∧ ∀ b, k.Follows P l' (some b)
  | .release k, l, known =>
      ∃ b l', known = some b ∧ P.moves l (.release b) l' ∧ k.Follows P l' none
  | .update f k, l, none => (∀ s, P.part (f s) = P.part s) ∧ k.Follows P l none
  | .update f k, l, some b =>
      ∃ b' l', (∀ s, P.part s = b → P.part (f s) = b') ∧ P.moves l (.update b b') l' ∧
        k.Follows P l' (some b')
  | .read k, l, known => ∀ s, (∀ b ∈ known, P.part s = b) → (k s).Follows P l known
  | .ask call k, l, known => ∀ a, ∃ l', P.moves l (.ask known call a) l' ∧ (k a).Follows P l' known
  | .client _ k, l, known => ∀ a, (k a).Follows P l known

variable {P : Protocol σ α ω ι β τ} {s : Threads σ α ω} {i : ℕ} {l : τ}
  {known : Option β}

theorem Prog.Follows.ite {c : Prop} [Decidable c] {p q : Prog σ α ω}
    (hp : c → p.Follows P l known) (hq : ¬ c → q.Follows P l known) :
    (if c then p else q).Follows P l known := by
  split
  case isTrue h => exact hp h
  case isFalse h => exact hq h

/-! ## Threads -/

def Event.thread : Event α ι → ℕ
  | .start i _ | .acquire i | .release i | .update i | .read i | .ask i _ | .client i _ => i

/-- What a thread knows of the part. -/
def Threads.knows (part : σ → β) (s : Threads σ α ω) (i : ℕ) : Option β :=
  if s.holder = some i then some (part s.shared) else none

/-- What is done in an event, if a protocol looks at it. -/
def Threads.deed (part : σ → β) (s : Threads σ α ω) : Event α ι → Option (Deed α ω ι β)
  | .start _ j => some (.start j)
  | .acquire _ => some .acquire
  | .release _ => some (.release (part s.shared))
  | .update i =>
      match s.prog i with
      | .update f _ =>
          if s.holder = some i then some (.update (part s.shared) (part (f s.shared))) else none
      | _ => none
  | .ask i a =>
      match s.prog i with
      | .ask call _ => some (.ask (s.knows part i) call a)
      | _ => none
  | .read _ | .client _ _ => none

/-- The call that is answered in an event. -/
def Threads.answered (s : Threads σ α ω) : Event α ι → Option (ω × α)
  | .ask i a =>
      match s.prog i with
      | .ask call _ => some (call, a)
      | _ => none
  | _ => none

def Deed.answer : Deed α ω ι β → Option (ω × α)
  | .ask _ call a => some (call, a)
  | _ => none

theorem Threads.answered_eq (part : σ → β) (e : Event α ι) :
    s.answered e = (s.deed part e).bind Deed.answer := by
  cases e with
  | update i =>
      cases hp : s.prog i <;> simp only [Threads.answered, Threads.deed, hp] <;> try rfl
      split <;> rfl
  | ask i a => cases hp : s.prog i <;> simp only [Threads.answered, Threads.deed, hp] <;> rfl
  | _ => rfl

/-- A thread whose call is not answered yet goes on by its answer. -/
theorem Threads.answered_of_asks {e : Event α ι} (hg : guard s e) {call : ω} {k : α → Prog σ α ω}
    (hp : s.prog e.thread = .ask call k) : ∃ a, s.answered e = some (call, a) := by
  cases e with
  | ask i a =>
      have hp : s.prog i = .ask call k := hp
      exact ⟨a, by rw [Threads.answered, hp]⟩
  | start i j =>
      have hdone : s.prog i = .done := hg
      cases hdone.symm.trans hp
  | acquire i | release i =>
      obtain ⟨-, k', hk⟩ := hg
      cases hk.symm.trans hp
  | update i =>
      obtain ⟨f, k', hk⟩ := hg
      cases hk.symm.trans hp
  | read i =>
      obtain ⟨k', hk⟩ := hg
      cases hk.symm.trans hp
  | client i a =>
      obtain ⟨call', k', hk⟩ := hg
      cases hk.symm.trans hp

/-- A step of one thread is none of the others. -/
theorem act_prog_other (job : ι → Prog σ α ω) (s : Threads σ α ω) (e : Event α ι) {j : ℕ}
    (hj : j ≠ e.thread) : (act job s e).prog j = s.prog j := by
  cases e with
  | start i j' => exact s.goto_of_ne _ hj
  | acquire i | release i | update i | read i | ask i a | client i a =>
      cases hp : s.prog i <;> simp only [act, hp]
      exact s.goto_of_ne _ hj

/-- A job is started by being given. -/
theorem Threads.deed_start {part : σ → β} {e : Event α ι} {j : ι}
    (h : s.deed part e = some (.start j)) : e = .start e.thread j := by
  cases e with
  | start i j' =>
      cases h
      rfl
  | update i =>
      cases hp : s.prog i <;> simp only [Threads.deed, hp] at h <;> try cases h
      split at h <;> cases h
  | ask i a => cases hp : s.prog i <;> simp only [Threads.deed, hp] at h <;> cases h
  | acquire i | release i | read i | client i a => cases h

/-- What a deed says of the part. -/
def Deed.Holds (b : β) : Deed α ω ι β → Prop
  | .release b' | .update b' _ => b = b'
  | .ask known _ _ => ∀ b' ∈ known, b = b'
  | _ => True

/-- Every thread follows the protocol from its stage. -/
def Following (P : Protocol σ α ω ι β τ) (stage : ℕ → τ) (s : Threads σ α ω) : Prop :=
  ∀ i, (s.prog i).Follows P (stage i) (s.knows P.part i)

/-- The move of a deed; without one the stage stays. -/
def Protocol.Takes (P : Protocol σ α ω ι β τ) (l : τ) (l' : τ) : Option (Deed α ω ι β) → Prop
  | some d => P.moves l d l'
  | none => l' = l

/-- What an event leaves of the part. -/
def Deed.leaves (b : β) : Option (Deed α ω ι β) → β
  | some (.update _ b') => b'
  | _ => b

theorem Threads.knows_of_holder {part : σ → β} (h : s.holder = some i) :
    s.knows part i = some (part s.shared) := if_pos h

theorem Threads.knows_of_not_holder {part : σ → β} (h : s.holder ≠ some i) :
    s.knows part i = none := if_neg h

theorem Threads.knows_eq {part : σ → β} {b : β} (h : s.knows part i = some b) :
    s.holder = some i ∧ part s.shared = b := by
  rw [Threads.knows] at h
  split at h
  · next hheld => exact ⟨hheld, Option.some.inj h⟩
  · cases h

/-- What is known of the part is so. -/
theorem Threads.part_of_mem_knows {part : σ → β} {b : β} (h : b ∈ s.knows part i) :
    part s.shared = b := (Threads.knows_eq h).2

/-- What is known in a deed is so. -/
theorem Threads.deed_holds {part : σ → β} {e : Event α ι} {d : Deed α ω ι β}
    (h : s.deed part e = some d) : d.Holds (part s.shared) := by
  cases e with
  | start i j | acquire i =>
      cases h
      trivial
  | release i =>
      cases h
      rfl
  | update i =>
      cases hp : s.prog i <;> simp only [Threads.deed, hp] at h <;> try cases h
      split at h
      · cases h
        rfl
      · cases h
  | ask i a =>
      cases hp : s.prog i <;> simp only [Threads.deed, hp] at h <;> cases h
      exact fun b hb => Threads.part_of_mem_knows hb
  | read i | client i a => cases h

variable {stage : ℕ → τ}

/-- One thread goes on with `p`, and the others know what they knew. -/
theorem Following.goto {t : Threads σ α ω} {p : Prog σ α ω} {l' : τ} (h : Following P stage s)
    (hprog : t.prog = (s.goto i p).prog) (hp : p.Follows P l' (t.knows P.part i))
    (hothers : ∀ j, j ≠ i → t.knows P.part j = s.knows P.part j) :
    Following P (Function.update stage i l') t := by
  intro j
  rw [hprog]
  by_cases hj : j = i
  · subst hj
    rw [s.goto_self, Function.update_self]
    exact hp
  · rw [s.goto_of_ne p hj, Function.update_of_ne hj, hothers j hj]
    exact h j

/-- Nobody else knows the part. -/
theorem Threads.knows_other {part : σ → β} (h : s.holder = some i) {j : ℕ} (hj : j ≠ i) :
    s.knows part j = none := by
  refine Threads.knows_of_not_holder ?_
  rw [h]
  intro hij
  exact hj (Option.some.inj hij).symm

/-- A program that changes the part has the lock. -/
theorem Following.part_of_not_holder {f : σ → σ} {k : Prog σ α ω} (h : Following P stage s)
    (hp : s.prog i = .update f k) (hfree : s.holder ≠ some i) :
    P.part (f s.shared) = P.part s.shared ∧ k.Follows P (stage i) none := by
  have hi := h i
  rw [hp, Threads.knows_of_not_holder hfree] at hi
  exact ⟨hi.1 s.shared, hi.2⟩

/-- **Every step of a thread is a move from its stage.** -/
theorem Following.step (job : ι → Prog σ α ω) {e : Event α ι} (h : Following P stage s)
    (hg : guard s e)
    (hstart : ∀ i j, e = .start i j →
      ∃ l', P.moves (stage i) (.start j) l' ∧ (job j).Follows P l' none) :
    ∃ l', P.Takes (stage e.thread) l' (s.deed P.part e) ∧
      Following P (Function.update stage e.thread l') (act job s e) := by
  cases e with
  | start i j =>
      obtain ⟨l', hmove, hjob⟩ := hstart i j rfl
      have hdone : s.prog i = .done := hg
      have hi := h i
      rw [hdone] at hi
      refine ⟨l', hmove, h.goto rfl ?_ fun _ _ => rfl⟩
      show (job j).Follows P l' (s.knows P.part i)
      rw [hi.1]
      exact hjob
  | acquire i =>
      obtain ⟨hfree, k, hp⟩ := hg
      have hi := h i
      rw [hp] at hi
      obtain ⟨-, l', hmove, hk⟩ := hi
      refine ⟨l', hmove, ?_⟩
      simp only [act, hp]
      refine h.goto rfl ?_ fun j hj => ?_
      · rw [Threads.knows_of_holder rfl]
        exact hk _
      · rw [Threads.knows_other rfl hj, Threads.knows_of_not_holder]
        rw [hfree]
        intro hno
        cases hno
  | release i =>
      obtain ⟨hheld, k, hp⟩ := hg
      have hi := h i
      rw [hp] at hi
      obtain ⟨b, l', hknown, hmove, hk⟩ := hi
      obtain ⟨-, rfl⟩ := Threads.knows_eq hknown
      refine ⟨l', hmove, ?_⟩
      simp only [act, hp]
      refine h.goto rfl hk fun j hj => ?_
      rw [Threads.knows_other hheld hj]
      rfl
  | update i =>
      obtain ⟨f, k, hp⟩ := hg
      by_cases hheld : s.holder = some i
      · have hi := h i
        rw [hp, Threads.knows_of_holder hheld] at hi
        obtain ⟨b', l', hpart, hmove, hk⟩ := hi
        have hb := hpart s.shared rfl
        refine ⟨l', ?_, ?_⟩
        · simp only [Threads.deed, Event.thread, hp, if_pos hheld, hb]
          exact hmove
        · let u : Threads σ α ω := { s.goto i k with shared := f s.shared }
          have hu : u.holder = some i := hheld
          simp only [act, hp]
          refine h.goto (t := u) rfl ?_ fun j hj => ?_
          · show k.Follows P l' (u.knows P.part i)
            rw [Threads.knows_of_holder hu, hb]
            exact hk
          · rw [Threads.knows_other hu hj, Threads.knows_other hheld hj]
      · obtain ⟨hpart, hk⟩ := h.part_of_not_holder hp hheld
        refine ⟨stage i, ?_, ?_⟩
        · simp only [Threads.deed, Event.thread, hp, if_neg hheld]
          rfl
        · let u : Threads σ α ω := { s.goto i k with shared := f s.shared }
          have hu : u.holder ≠ some i := hheld
          simp only [act, hp]
          refine h.goto (t := u) rfl ?_ fun j _ => ?_
          · show k.Follows P (stage i) (u.knows P.part i)
            rw [Threads.knows_of_not_holder hu]
            exact hk
          · show (if s.holder = some j then some (P.part (f s.shared)) else none) = _
            rw [hpart]
            rfl
  | read i =>
      obtain ⟨k, hp⟩ := hg
      have hi := h i
      rw [hp] at hi
      refine ⟨stage i, rfl, ?_⟩
      simp only [act, hp]
      exact h.goto rfl (hi s.shared fun _ hb => Threads.part_of_mem_knows hb) fun _ _ => rfl
  | ask i a =>
      obtain ⟨call, k, hp⟩ := hg
      have hi := h i
      rw [hp] at hi
      obtain ⟨l', hmove, hk⟩ := hi a
      refine ⟨l', ?_, ?_⟩
      · simp only [Threads.deed, Event.thread, hp]
        exact hmove
      · simp only [act, hp]
        exact h.goto rfl hk fun _ _ => rfl
  | client i a =>
      obtain ⟨call, k, hp⟩ := hg
      have hi := h i
      rw [hp] at hi
      refine ⟨stage i, rfl, ?_⟩
      simp only [act, hp]
      exact h.goto rfl (hi a) fun _ _ => rfl

/-- The part is changed by what is done under the lock, and by nothing else. -/
theorem Following.part_act (job : ι → Prog σ α ω) {e : Event α ι} (h : Following P stage s)
    (hg : guard s e) :
    P.part (act job s e).shared = Deed.leaves (P.part s.shared) (s.deed P.part e) := by
  cases e with
  | start i j => rfl
  | acquire i =>
      obtain ⟨-, k, hp⟩ := hg
      simp only [act, hp]
      rfl
  | release i =>
      obtain ⟨-, k, hp⟩ := hg
      simp only [act, hp]
      rfl
  | update i =>
      obtain ⟨f, k, hp⟩ := hg
      by_cases hheld : s.holder = some i
      · simp only [act, Threads.deed, hp, if_pos hheld]
        rfl
      · simp only [act, Threads.deed, hp, if_neg hheld]
        exact (h.part_of_not_holder hp hheld).1
  | read i =>
      obtain ⟨k, hp⟩ := hg
      simp only [act, hp]
      rfl
  | ask i a =>
      obtain ⟨call, k, hp⟩ := hg
      simp only [act, Threads.deed, hp]
      rfl
  | client i a =>
      obtain ⟨call, k, hp⟩ := hg
      simp only [act, hp]
      rfl

end Monitor
