/-
# A part of the state that one thread writes

What a thread has read may be out of date by its next step.  But a part of the state that all the
others leave alone is what its owner made it, at every point of a run and not only under the lock.

An `Ownership` says what is to hold of that part, of the owner's notes on its transcript, and of
what the owner does next.  It is settled on the owner's program alone, update by update, with the
part known exactly (`Prog.Owns`).  Of the others it is enough that they honour the contract
`leaves`.  Then it holds in every state of every run (`Run.owned`).
-/
import JetsonPerception.Lib.Contract

namespace Monitor

variable {σ α ω ι β γ : Type}

/-- A part of the state, the notes of its owner, and what is to hold wherever the owner is. -/
structure Ownership (σ α ω β γ : Type) where
  part : σ → β
  note : γ → Seen σ α ω → γ
  holds : γ → β → Prog σ α ω → Prop

/-- On every path of the program of its owner, that holds of the part as the program makes it. -/
def Prog.Owns (O : Ownership σ α ω β γ) : Prog σ α ω → γ → β → Prop
  | .done, g, b => O.holds g b .done
  | .acquire k, g, b => O.holds g b (.acquire k) ∧ k.Owns O g b
  | .release k, g, b => O.holds g b (.release k) ∧ k.Owns O g b
  | .update f k, g, b => O.holds g b (.update f k) ∧
      ∃ b', (∀ s, O.part s = b → O.part (f s) = b') ∧ k.Owns O g b'
  | .read k, g, b => O.holds g b (.read k) ∧
      ∀ s, O.part s = b → (k s).Owns O (O.note g (.read s)) b
  | .ask call k, g, b => O.holds g b (.ask call k) ∧
      ∀ a, (k a).Owns O (O.note g (.ask call a)) b
  | .client call k, g, b => O.holds g b (.client call k) ∧
      ∀ a, (k a).Owns O (O.note g (.client call a)) b

/-- The contract of the threads but the owner; the notes say who is it. -/
def leaves (part : σ → β) : Contract σ α ω Bool where
  note g _ := g
  allows
    | false, .update f => ∀ s, part (f s) = part s
    | _, _ => True

variable {O : Ownership σ α ω β γ} {job : ι → Prog σ α ω} {s t : Threads σ α ω}
  {es : List (Event α ι)} {i : ℕ} {g : γ} {b : β}

theorem Prog.Owns.holds {p : Prog σ α ω} (h : p.Owns O g b) : O.holds g b p := by
  cases p with
  | done => exact h
  | _ => exact h.1

theorem Prog.Owns.ite {c : Prop} [Decidable c] {p q : Prog σ α ω} (hp : c → p.Owns O g b)
    (hq : ¬ c → q.Owns O g b) : (if c then p else q).Owns O g b := by
  split
  case isTrue h => exact hp h
  case isFalse h => exact hq h

/-- The owner is where it should be with its part, and the others leave that alone. -/
structure Owned (O : Ownership σ α ω β γ) (i : ℕ) (g : γ) (s : Threads σ α ω) : Prop where
  owner : (s.prog i).Owns O g (O.part s.shared)
  others : ∀ j, j ≠ i → (s.prog j).Honours (leaves O.part) false

/-- The thread `j` goes on with `p`. -/
theorem Prog.Owns.goto {j : ℕ} {p : Prog σ α ω} {g' : γ} {b' : β} (h : (s.prog i).Owns O g b)
    (hself : j = i → p.Owns O g' b') (hother : j ≠ i → g' = g ∧ b' = b) :
    ((s.goto j p).prog i).Owns O g' b' := by
  by_cases hj : j = i
  · subst hj
    rw [s.goto_self]
    exact hself rfl
  · obtain ⟨rfl, rfl⟩ := hother hj
    rw [s.goto_of_ne p (Ne.symm hj)]
    exact h

theorem goto_shared (s : Threads σ α ω) (j : ℕ) (p : Prog σ α ω) :
    (s.goto j p).shared = s.shared := rfl

/-- Only jobs that leave the part alone are started, and none by the owner. -/
def Leaving (part : σ → β) (job : ι → Prog σ α ω) (i : ℕ) (_ : Threads σ α ω)
    (e : Event α ι) : Prop :=
  ∀ j k, e = .start j k → j ≠ i ∧ (job k).Honours (leaves part) false

theorem Owned.step_others {e : Event α ι} (h : Owned O i g s) (hg : guard s e)
    (hC : Leaving O.part job i s e) {j : ℕ} (hj : j ≠ i) :
    ((act job s e).prog j).Honours (leaves O.part) false := by
  by_cases hstart : ∃ k, e = .start j k
  · obtain ⟨k, rfl⟩ := hstart
    show ((s.goto j (job k)).prog j).Honours _ _
    rw [s.goto_self]
    exact (hC j k rfl).2
  · have hstep : ((act job s e).prog j).Honours (leaves O.part) _ :=
      (h.others j hj).step hg fun k hk => hstart ⟨k, hk⟩
    have hnote : (s.sees j e).toList.foldl (leaves O.part).note false = false := by
      cases s.sees j e <;> rfl
    rwa [hnote] at hstep

/-- A step of the owner or of another. -/
theorem Owned.step {e : Event α ι} (h : Owned O i g s) (hg : guard s e)
    (hC : Leaving O.part job i s e) :
    Owned O i ((s.sees i e).toList.foldl O.note g) (act job s e) := by
  refine ⟨?_, fun j hj => h.step_others hg hC hj⟩
  have ho := h.owner
  cases e with
  | start j k => exact ho.goto (fun hj => absurd hj (hC j k rfl).1) fun _ => ⟨rfl, rfl⟩
  | acquire j =>
      obtain ⟨-, k, hp⟩ := hg
      simp only [act, hp]
      refine ho.goto (fun hj => ?_) fun _ => ⟨rfl, rfl⟩
      subst hj
      rw [hp] at ho
      exact ho.2
  | release j =>
      obtain ⟨-, k, hp⟩ := hg
      simp only [act, hp]
      refine ho.goto (fun hj => ?_) fun _ => ⟨rfl, rfl⟩
      subst hj
      rw [hp] at ho
      exact ho.2
  | update j =>
      obtain ⟨f, k, hp⟩ := hg
      simp only [act, hp]
      refine ho.goto (fun hj => ?_) fun hj => ⟨rfl, ?_⟩
      · subst hj
        rw [hp] at ho
        obtain ⟨-, b', hpart, hk⟩ := ho
        rw [hpart s.shared rfl]
        exact hk
      · have hleaves := h.others j hj
        rw [hp] at hleaves
        exact hleaves.1 s.shared
  | read j =>
      obtain ⟨k, hp⟩ := hg
      simp only [act, hp]
      refine ho.goto (fun hj => ?_) fun hj => ?_
      · subst hj
        rw [hp] at ho
        simpa [Threads.sees, goto_shared] using ho.2 s.shared rfl
      · refine ⟨?_, rfl⟩
        simp [Threads.sees, hj]
  | ask j a =>
      obtain ⟨call, k, hp⟩ := hg
      simp only [act, hp]
      refine ho.goto (fun hj => ?_) fun hj => ?_
      · subst hj
        rw [hp] at ho
        simpa [Threads.sees, hp, goto_shared] using ho.2 a
      · refine ⟨?_, rfl⟩
        cases hpi : s.prog i <;> simp [Threads.sees, hpi, hj]
  | client j a =>
      obtain ⟨call, k, hp⟩ := hg
      simp only [act, hp]
      refine ho.goto (fun hj => ?_) fun hj => ?_
      · subst hj
        rw [hp] at ho
        simpa [Threads.sees, hp, goto_shared] using ho.2 a
      · refine ⟨?_, rfl⟩
        cases hpi : s.prog i <;> simp [Threads.sees, hpi, hj]

/-- **What the owner has made of its part** holds in every state of every run. -/
theorem Run.owned (h : ((machine job).restrict (Leaving O.part job i)).Run s es t)
    (h0 : Owned O i g s) : Owned O i ((transcript job i s es).foldl O.note g) t := by
  induction h with
  | refl => exact h0
  | @snoc es u e hrun hg ih =>
      have hu : u = es.foldl (act job) s := hrun.eq_foldl
      rw [transcript_append, ← hu, List.foldl_append, transcript, transcript, List.append_nil]
      exact ih.step hg.1 hg.2

end Monitor
