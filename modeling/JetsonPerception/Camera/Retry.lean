/-
# The retry budget of the camera node

`max_rebuilds` is "how many consecutive rebuilds may fail to produce a frame
before giving up", sized to outlive a restart of `nvargus-daemon`.

The loop spends it one rebuild at a time as long as `start_pipeline` returns.
When `start_pipeline` throws, `rebuild_pipeline` answers `false` and the loop is
left at once, whatever is left of the budget: `false` is also the answer of an
aborted backoff, and the caller cannot tell the two apart.  So the budget is
honoured exactly in the runs where no attempt throws before the last one it
allows.
-/
import JetsonPerception.Camera.Capture

namespace JetsonPerception.Camera

open GuardedMachine

variable {P : Params} {es es' : List Event} {s t : Node}

/-! ## A node nobody ends from outside -/

/-- No signal, no exception out of `spin`. -/
def Unattended (es : List Event) : Prop := ∀ e ∈ es, e.isExternal = false

instance (es : List Event) : Decidable (Unattended es) :=
  inferInstanceAs (Decidable (∀ e ∈ es, e.isExternal = false))

/-- The states of an unattended node: it is up until the loop has set
`unrecoverable_`, and `main` leaves `spin` only after that. -/
structure SelfEnding (s : Node) : Prop where
  up : s.pc.over = false → s.alive = true
  leaving : s.pc = .afterLoop ∨ s.pc = .condemned → s.alive = true
  flagged : s.pc = .ending ∨ s.pc = .exited ↔ s.unrecoverable = true
  down : s.rosOk = false ↔ s.pc = .exited
  spins : s.rosOk = true → s.main = .constructing ∨ s.main = .spinning ∨ s.main = .finished
  born : s.main = .constructing → s.pc = .unborn
  unborn : s.pc = .unborn → s.main = .constructing ∨ s.main = .finished
  done : s.main = .finished ∨ s.main = .killed → s.pc = .exited ∨ s.pc = .unborn
  fails : s.main = .destroying ∨ s.main = .joining ∨ s.main = .finished ∨ s.main = .killed →
    s.exitCode = 1

/-- What the capture thread shares with `main` and the environment, left alone. -/
def SameFlags (s t : Node) : Prop :=
  t.running = s.running ∧ t.rosOk = s.rosOk ∧ t.unrecoverable = s.unrecoverable ∧
    t.main = s.main ∧ t.exitCode = s.exitCode

/-- Inside the loop. -/
def Pc.inLoop (pc : Pc) : Bool := !pc.over && pc != .unborn

theorem Pc.inLoop_not_over {pc : Pc} (h : pc.inLoop = true) : pc.over = false := by
  cases pc <;> simp_all [Pc.inLoop, Pc.over]

/-- Inside the loop and just behind it the thread is neither unborn nor done with the flag. -/
theorem Pc.inLoop_or_after {pc : Pc} (h : pc.inLoop = true ∨ pc = .afterLoop) :
    pc ≠ .unborn ∧ ¬ (pc = .ending ∨ pc = .exited) := by
  cases pc <;> simp_all [Pc.inLoop, Pc.over]

/-- The loop goes on, or is left: a step of the capture thread inside it. -/
theorem SelfEnding.move (h : SelfEnding s) (hs : s.pc.inLoop = true)
    (ht : t.pc.inLoop = true ∨ t.pc = .afterLoop) (hst : SameFlags s t) : SelfEnding t := by
  obtain ⟨hrunning, hros, hflag, hmain, hcode⟩ := hst
  obtain ⟨hsborn, hsin⟩ := Pc.inLoop_or_after (.inl hs)
  obtain ⟨htborn, htin⟩ := Pc.inLoop_or_after ht
  have halive : t.alive = true := by
    rw [Node.alive, hrunning, hros]
    exact h.up (Pc.inLoop_not_over hs)
  have hrosOk : t.rosOk = true := (Bool.and_eq_true_iff.mp halive).2
  constructor
  case up =>
      intro _
      exact halive
  case leaving =>
      intro _
      exact halive
  case flagged =>
      rw [hflag, ← h.flagged]
      exact iff_of_false htin hsin
  case down =>
      rw [hrosOk]
      exact iff_of_false (by simp) fun hpc => htin (.inr hpc)
  case spins =>
      rw [hros, hmain]
      exact h.spins
  case born =>
      rw [hmain]
      intro hm
      exact absurd (h.born hm) hsborn
  case unborn =>
      intro hpc
      exact absurd hpc htborn
  case done =>
      rw [hmain]
      intro hm
      rcases h.done hm with hpc | hpc
      · exact absurd (.inr hpc) hsin
      · exact absurd hpc hsborn
  case fails =>
      rw [hmain, hcode]
      exact h.fails

/-- A node that is down has set the flag. -/
theorem SelfEnding.ended (h : SelfEnding s) (hros : s.rosOk = false) :
    s.pc = .exited ∧ s.unrecoverable = true := by
  have hpc := h.down.mp hros
  exact ⟨hpc, h.flagged.mp (.inr hpc)⟩

/-- `main` has left `spin` only when the node is down. -/
theorem SelfEnding.left_spin (h : SelfEnding s) (hborn : s.main ≠ .constructing)
    (hspins : s.main ≠ .spinning) (hdone : s.main ≠ .finished) : s.rosOk = false := by
  cases hros : s.rosOk with
  | false => rfl
  | true =>
      rcases h.spins hros with hm | hm | hm
      · exact absurd hm hborn
      · exact absurd hm hspins
      · exact absurd hm hdone

/-- Once the node is down only `main` moves, towards its exit code. -/
theorem SelfEnding.of_ended (hros : t.rosOk = false) (hpc : t.pc = .exited)
    (hflag : t.unrecoverable = true) (hborn : t.main ≠ .constructing)
    (hfails : t.main = .destroying ∨ t.main = .joining ∨ t.main = .finished ∨ t.main = .killed →
      t.exitCode = 1) : SelfEnding t := by
  constructor
  case up =>
      intro hover
      rw [hpc] at hover
      cases hover
  case leaving =>
      rw [hpc]
      rintro (hp | hp) <;> cases hp
  case flagged =>
      rw [hpc, hflag]
      exact iff_of_true (.inr rfl) rfl
  case down => exact iff_of_true hros hpc
  case spins =>
      intro hup
      rw [hros] at hup
      cases hup
  case born =>
      intro hm
      exact absurd hm hborn
  case unborn =>
      intro hp
      rw [hpc] at hp
      cases hp
  case done =>
      intro _
      exact .inl hpc
  case fails => exact hfails

theorem SelfEnding.step (s : Node) (e : Event) (h : SelfEnding s)
    (hg : guard P s e ∧ e.isExternal = false) : SelfEnding (act P s e) := by
  obtain ⟨hg, hx⟩ := hg
  have hflags : ∀ pc loc handles, SameFlags s { s with pc, loc, handles } := by
    intro _ _ _
    exact ⟨rfl, rfl, rfl, rfl, rfl⟩
  cases e <;> simp only [guard] at hg
  case enter | discard | publish | carryOn | stall | wedged | retry | nap | rested | tryStart
      | rebuilt =>
      exact h.move (by rw [hg.1]; rfl) (.inl rfl) (hflags _ _ _)
  case sample | empty | ended | sleep =>
      exact h.move (by rw [hg]; rfl) (.inl rfl) (hflags _ _ _)
  case leave | interrupted | exhausted | abort | rebuildFailed =>
      exact h.move (by rw [hg.1]; rfl) (.inr rfl) (hflags _ _ _)
  case signal | spinThrows => cases hx
  -- the ends of the capture thread
  case quit =>
      have halive := h.leaving (.inl hg.1)
      rw [hg.2] at halive
      cases halive
  case shutdown =>
      have hborn : s.main ≠ .constructing := by
        intro hm
        cases hg.symm.trans (h.born hm)
      exact .of_ended rfl rfl (h.flagged.mp (.inl hg)) hborn h.fails
  case condemn | declare | constructed | constructorThrew =>
      obtain ⟨h1, h2, h3, h4, h5, h6, h7, h8, h9⟩ := h
      constructor <;> simp_all [act, Pc.over, Node.alive]
  -- the main thread, behind `spin`
  case spinReturns =>
      obtain ⟨hpc, hflag⟩ := h.ended hg.2
      exact .of_ended hg.2 hpc hflag (by simp [act]) (by simp [act])
  case readFlag =>
      have hros := h.left_spin (by simp [hg]) (by simp [hg]) (by simp [hg])
      obtain ⟨hpc, hflag⟩ := h.ended hros
      exact .of_ended hros hpc hflag (by simp [act]) fun _ => by simp [act, hflag]
  case stop =>
      have hros := h.left_spin (by simp [hg]) (by simp [hg]) (by simp [hg])
      obtain ⟨hpc, hflag⟩ := h.ended hros
      exact .of_ended hros hpc hflag (by simp [act]) fun _ => h.fails (.inl hg)
  case joined =>
      have hros := h.left_spin (by simp [hg.1]) (by simp [hg.1]) (by simp [hg.1])
      obtain ⟨hpc, hflag⟩ := h.ended hros
      exact .of_ended hros hpc hflag (by simp [act]) fun _ => h.fails (.inr (.inl hg.1))
  case deadline =>
      have hros := h.left_spin (by simp [hg]) (by simp [hg]) (by simp [hg])
      exact .of_ended hros rfl (h.ended hros).2 (by simp [act]) fun _ => rfl

theorem SelfEnding.init : SelfEnding {} := by
  constructor <;> simp [Node.alive]

/-- An unattended run, step by step. -/
theorem Unattended.restrict {M : GuardedMachine Node Event} (hq : Unattended es)
    (h : M.Run s es t) : (M.restrict fun _ e => e.isExternal = false).Run s es t :=
  h.restrict_of fun _ => hq

theorem selfEnding (h : (camera P).Run {} es s) (hq : Unattended es) : SelfEnding s :=
  (hq.restrict h).inv SelfEnding SelfEnding.step .init

/-! ## When an attempt may throw -/

/-- `start_pipeline` throws only in the last attempt the budget allows. -/
def ThrowsLast (P : Params) (s : Node) : Event → Prop
  | .rebuildFailed _ => P.maxRebuilds ≤ s.loc.rebuildsWithoutFrame + 1
  | _ => True

/-- The loop was left with the budget spent. -/
def SpentBudget (P : Params) (g : Tally) (s : Node) : Prop :=
  s.pc.over = true → P.maxRebuilds ≤ g.sinceSample

/-- The loop was left with some of the budget unspent. -/
def LeftBudget (P : Params) (g : Tally) (s : Node) : Prop :=
  s.pc.over = true ∧ (g.sinceSample : ℤ) < P.maxRebuilds

/-- A node that is up leaves its loop in two ways only. -/
theorem SpentBudget.step {g : Tally} {e : Event} (hc : Counters P g s) (hs : SelfEnding s)
    (h : SpentBudget P g s) (hg : guard P s e) (ht : ThrowsLast P s e)
    (hx : e.isExternal = false) : SpentBudget P (g.add e) (act P s e) := by
  have hl := hc.loc
  cases e <;> simp only [guard] at hg
  case exhausted =>
      rw [hg.1] at hl
      intro _
      show P.maxRebuilds ≤ g.sinceSample
      rw [← hl.1]
      exact hg.2
  case rebuildFailed r =>
      rw [hg.1] at hl
      intro _
      show P.maxRebuilds ≤ ((g.sinceSample + 1 : ℕ) : ℤ)
      rw [Int.natCast_add, ← hl.1]
      exact ht
  -- these need a node that is going down before its loop is over
  case leave => exact absurd (hs.up (by simp [hg.1, Pc.over])) (by simp [hg.2])
  case interrupted => exact absurd (hs.up (by simp [hg.1, Pc.over])) (by simp [hg.2])
  case abort => exact absurd (hs.up (by simp [hg.1, Pc.over])) (by simp [hg.2])
  case deadline =>
      intro _
      refine h ?_
      by_contra hpc
      have hup := hs.up (by simpa using hpc)
      have := hs.spins (by simp_all [Node.alive])
      simp_all
  all_goals simp_all [SpentBudget, act, Tally.add, Pc.over]

/-- Nothing is rebuilt and no sample is taken once the loop has been left. -/
theorem LeftBudget.step {g : Tally} {e : Event} (h : LeftBudget P g s) (hg : guard P s e)
    (hb : s.main = .constructing → s.pc = .unborn) : LeftBudget P (g.add e) (act P s e) := by
  obtain ⟨ho, hlt⟩ := h
  cases e <;> simp only [guard] at hg <;>
    simp_all [LeftBudget, act, Tally.add, Pc.over]

/-- The first attempt that throws too early leaves the loop with budget unspent, and it
stays unspent. -/
theorem throwsLast_or_left (h : (camera P).Run {} es s) :
    ((camera P).restrict (ThrowsLast P)).Run {} es s ∨ LeftBudget P (tally es) s := by
  induction h with
  | refl => exact .inl .refl
  | @snoc es s e hr hg ih =>
      have hc := counters hr
      rcases ih with ih | ih
      · by_cases ht : ThrowsLast P s e
        · exact .inl (ih.snoc e ⟨hg, ht⟩)
        · refine .inr ?_
          cases e <;> simp only [ThrowsLast, not_true_eq_false] at ht
          have hr := hc.loc
          rw [hg.1] at hr
          refine ⟨rfl, ?_⟩
          show ((tally (es ++ [_])).sinceSample : ℤ) < P.maxRebuilds
          rw [tally_concat, Tally.add, Int.natCast_add, ← hr.1]
          exact Int.not_le.mp ht
      · exact .inr (by rw [tally_concat]; exact ih.step hg hc.born)

/-- Along an unattended run in which no attempt throws early, the loop is left only with
the budget spent. -/
theorem spentBudget (h : ((camera P).restrict (ThrowsLast P)).Run {} es s)
    (hq : Unattended es) : SpentBudget P (tally es) s := by
  refine ((hq.restrict h).tally Tally.add
    (fun g s => Counters P g s ∧ SelfEnding s ∧ SpentBudget P g s)
    ?_ ⟨.init P, .init, fun ho => absurd ho (by simp [Pc.over])⟩).2.2
  rintro g s e ⟨hc, hs, hb⟩ ⟨⟨hg, ht⟩, hx⟩
  exact ⟨hc.step g s e hg, hs.step s e ⟨hg, hx⟩, hb.step hc hs hg ht hx⟩

/-- **The retry budget.**  When an unattended node gives up, `max_rebuilds` attempts have
failed since the last sample iff no attempt but the last one allowed has thrown. -/
theorem retry_budget_iff (h : (camera P).Run {} es s) (hq : Unattended es)
    (hu : s.unrecoverable = true) :
    P.maxRebuilds ≤ (tally es).sinceSample ↔
      ((camera P).restrict (ThrowsLast P)).Run {} es s := by
  constructor
  · intro hM
    rcases throwsLast_or_left h with hr | ⟨-, hlt⟩
    · exact hr
    · exact absurd hM (Int.not_le.mpr hlt)
  · intro hr
    refine spentBudget hr hq ?_
    rcases (selfEnding h hq).flagged.mpr hu with hpc | hpc <;> rw [hpc] <;> rfl

/-- The stream ends, the pipeline is rebuilt, and PLAYING is refused: what the node sees
while `nvargus-daemon` restarts. -/
def daemonRestart : List Event :=
  [.constructed {}, .enter, .empty, .carryOn, .ended, .retry, .nap, .sleep, .nap, .sleep,
   .rested, .tryStart, .rebuildFailed { playing := false }, .condemn, .declare]

theorem retry_budget_iff_daemonRestart :
    (1 : ℤ) ≤ (tally daemonRestart).sinceSample ↔
      ((camera { maxRebuilds := 1 }).restrict (ThrowsLast { maxRebuilds := 1 })).Run {}
        daemonRestart (daemonRestart.foldl (act { maxRebuilds := 1 }) {}) :=
  retry_budget_iff (P := { maxRebuilds := 1 }) (.of_admits (by decide)) (by decide) (by decide)

/-- With the default budget of ten, one refusal is enough. -/
theorem retry_budget_broken :
    ∃ es s, (camera {}).Run {} es s ∧ Unattended es ∧ s.unrecoverable = true ∧
      ((tally es).sinceSample : ℤ) < ({} : Params).maxRebuilds :=
  ⟨daemonRestart, _, .of_admits (by decide), by decide, by decide, by decide⟩

end JetsonPerception.Camera
