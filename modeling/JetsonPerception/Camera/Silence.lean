/-
# A silent camera is given up on

No sample arrives any more, and nobody ends the node from outside.  Every
timeout counts towards a rebuild, every end of stream is one, and every rebuild
counts towards `max_rebuilds`; so from any point of the loop the pulls and the
rebuilds still to come are bounded by what the two counters have left, the whole
run is bounded, and where it ends `main` exits non-zero.

The three bounds are three measures of a state (`pullsLeft`, `rebuildsLeft`,
`stepsLeft`), each paid for event by event.
-/
import JetsonPerception.Camera.Retry
import Mathlib.Tactic.Ring
import Mathlib.Tactic.Linarith

namespace JetsonPerception.Camera

open GuardedMachine

variable {P : Params} {es es' : List Event} {s t : Node}

/-! ## What the counters have left -/

/-- Pulls for the rebuilds still allowed after `rebuilds` of them. -/
def owed (P : Params) (rebuilds : ℤ) : ℤ :=
  (max 0 P.maxRebuilds - rebuilds) * max 1 P.stallRestartS

theorem owed_succ (n : ℤ) : owed P (n + 1) + max 1 P.stallRestartS = owed P n := by
  rw [owed, owed]
  ring

theorem owed_nonneg {n : ℤ} (h : n ≤ max 0 P.maxRebuilds) : 0 ≤ owed P n :=
  mul_nonneg (by omega) (le_trans zero_le_one (le_max_left _ _))

/-- Pulls a silent camera still gets. -/
def pullsLeft (P : Params) (l : Locals) : Pc → ℤ
  | .unborn | .sampled => owed P 0 + max 1 P.stallRestartS
  | .loopHead | .pull =>
      owed P l.rebuildsWithoutFrame + (max 1 P.stallRestartS - l.stalledSeconds)
  | .afterPull | .eosQuery =>
      owed P l.rebuildsWithoutFrame + (max 1 P.stallRestartS - l.stalledSeconds) - 1
  | .budget | .backoff | .napping | .beforeStart | .starting => owed P l.rebuildsWithoutFrame
  | .afterLoop | .condemned | .ending | .exited => 0

/-- Rebuilds a silent camera still gets. -/
def rebuildsLeft (P : Params) (l : Locals) : Pc → ℤ
  | .unborn | .sampled => max 0 P.maxRebuilds
  | .afterLoop | .condemned | .ending | .exited => 0
  | _ => max 0 P.maxRebuilds - l.rebuildsWithoutFrame

/-- Steps of the capture thread to its next pull, or to its end. -/
def stage (l : Locals) : Pc → ℤ
  | .unborn | .sampled => 46
  | .afterPull => 45
  | .eosQuery => 44
  | .budget => 43
  | .backoff => 20 + 2 * (10 - l.slept)
  | .napping => 19 + 2 * (10 - l.slept)
  | .beforeStart => 17
  | .starting => 16
  | .loopHead => 12
  | .pull => 11
  | .afterLoop => 10
  | .condemned => 9
  | .ending => 8
  | .exited => 0

/-- Steps of `main` to its end. -/
def MainPc.stage : MainPc → ℤ
  | .constructing => 5
  | .spinning => 4
  | .returned => 3
  | .destroying => 2
  | .joining => 1
  | .finished | .killed => 0

/-- Events of any kind a silent, unattended camera still has before it. -/
def stepsLeft (P : Params) (s : Node) : ℤ :=
  64 * pullsLeft P s.loc s.pc + stage s.loc s.pc + s.main.stage

/-- Neither a sample nor an end from outside. -/
def Event.isSilent (e : Event) : Prop := e ≠ .sample ∧ e.isExternal = false

section Measures

variable {g : Tally} {e : Event}

theorem pullsLeft_nonneg (hc : Counters P g s) : 0 ≤ pullsLeft P s.loc s.pc := by
  have h0 := owed_nonneg (P := P) (n := 0) (le_max_left _ _)
  have hl := hc.loc
  cases hpc : s.pc <;> rw [hpc] at hl <;> simp only [pullsLeft, le_refl]
  case unborn | sampled => omega
  case loopHead | pull | afterPull | eosQuery =>
      have := owed_nonneg hl.2.2.2
      have := hl.2.1
      omega
  case budget => exact owed_nonneg hl.2
  all_goals exact owed_nonneg (by have := hl.2.1; omega)

theorem stage_range (hc : Counters P g s) : 0 ≤ stage s.loc s.pc ∧ stage s.loc s.pc ≤ 46 := by
  have hl := hc.loc
  cases hpc : s.pc <;> rw [hpc] at hl <;> simp only [stage]
  case backoff =>
      obtain ⟨-, -, hn, hd⟩ := hl
      rw [backoffDelay] at hd
      omega
  case napping =>
      obtain ⟨-, -, hn, hd⟩ := hl
      rw [backoffDelay] at hd
      omega
  all_goals omega

/-- Every pull of a silent camera is paid for. -/
theorem pullsLeft_step (hc : Counters P g s) (hg : guard P s e) (hs : e.isSilent) :
    (if e.isPull then 1 else 0) + pullsLeft P (act P s e).loc (act P s e).pc ≤
      pullsLeft P s.loc s.pc := by
  have hpos := pullsLeft_nonneg hc
  have hl := hc.loc
  cases e <;> simp only [guard] at hg <;>
    simp only [Event.isPull, act, if_true, if_false, Bool.false_eq_true, zero_add]
  case sample => exact absurd rfl hs.1
  case constructed r =>
      rw [hc.born hg.1] at hl ⊢
      obtain ⟨h1, h2, -⟩ := hl
      simp only [pullsLeft, h1, h2, sub_zero, le_refl]
  case rebuilt r =>
      have := owed_succ (P := P) s.loc.rebuildsWithoutFrame
      rw [hg.1]
      simp only [pullsLeft, sub_zero]
      omega
  case ended =>
      rw [hg] at hl ⊢
      have := hl.2.1
      simp only [pullsLeft]
      omega
  case stall =>
      rw [hg.1]
      simp only [pullsLeft]
      omega
  case wedged =>
      rw [hg.1] at hl ⊢
      have := hl.2.1
      simp only [pullsLeft]
      omega
  case leave | interrupted | exhausted | abort | rebuildFailed | quit | deadline => exact hpos
  all_goals simp_all [pullsLeft]

theorem rebuildsLeft_nonneg (hc : Counters P g s) : 0 ≤ rebuildsLeft P s.loc s.pc := by
  have hl := hc.loc
  cases hpc : s.pc <;> rw [hpc] at hl <;> simp only [rebuildsLeft, le_refl]
  case unborn | sampled => exact le_max_left _ _
  case loopHead | pull | afterPull | eosQuery => exact sub_nonneg.mpr hl.2.2.2
  case budget => exact sub_nonneg.mpr hl.2
  all_goals
    have := hl.2.1
    omega

/-- Every rebuild of a silent camera is paid for. -/
theorem rebuildsLeft_step (hc : Counters P g s) (hg : guard P s e) (hs : e.isSilent) :
    (if e.isRebuild then 1 else 0) + rebuildsLeft P (act P s e).loc (act P s e).pc ≤
      rebuildsLeft P s.loc s.pc := by
  have hpos := rebuildsLeft_nonneg hc
  have hl := hc.loc
  cases e <;> simp only [guard] at hg <;>
    simp only [Event.isRebuild, act, if_true, if_false, Bool.false_eq_true, zero_add]
  case sample => exact absurd rfl hs.1
  case constructed r =>
      rw [hc.born hg.1] at hl ⊢
      obtain ⟨-, hr, -⟩ := hl
      simp only [rebuildsLeft, hr, sub_zero, le_refl]
  case rebuilt r =>
      rw [hg.1]
      simp only [rebuildsLeft]
      omega
  case rebuildFailed r =>
      rw [hg.1] at hl ⊢
      have := hl.2.1
      simp only [rebuildsLeft]
      omega
  case leave | interrupted | exhausted | abort | quit | deadline => exact hpos
  all_goals simp_all [rebuildsLeft]

/-- Between two pulls the capture thread, and `main`, only move forward. -/
theorem stage_step (hc : Counters P g s) (hg : guard P s e) (hs : e.isSilent) :
    1 + (stage (act P s e).loc (act P s e).pc + (act P s e).main.stage) ≤
      64 * (if e.isPull then 1 else 0) + (stage s.loc s.pc + s.main.stage) := by
  have hpos := (stage_range hc).1
  have hl := hc.loc
  cases e <;> simp only [guard] at hg <;>
    simp only [Event.isPull, act, if_true, if_false, Bool.false_eq_true, mul_zero, zero_add]
  case sample => exact absurd rfl hs.1
  case signal => exact absurd hs.2 (by simp [Event.isExternal])
  case constructed r =>
      rw [hg.1, hc.born hg.1]
      simp only [stage, MainPc.stage]
      omega
  case rested =>
      rw [hg.1] at hl ⊢
      obtain ⟨-, -, -, hd⟩ := hl
      rw [backoffDelay] at hd
      simp only [stage]
      omega
  case constructorThrew | spinReturns | joined =>
      rw [hg.1]
      simp only [MainPc.stage]
      omega
  case spinThrows | readFlag | stop =>
      rw [hg]
      simp only [MainPc.stage]
      omega
  case deadline =>
      have hend : stage s.loc .exited = 0 := rfl
      rw [hg, hend]
      simp only [MainPc.stage]
      omega
  case empty | ended | sleep | declare | shutdown =>
      rw [hg]
      simp only [stage]
      omega
  all_goals
    rw [hg.1]
    simp only [stage]
    omega

/-- Every event of a silent camera is paid for. -/
theorem stepsLeft_step (hc : Counters P g s) (hg : guard P s e) (hs : e.isSilent) :
    1 + stepsLeft P (act P s e) ≤ stepsLeft P s := by
  have hp := pullsLeft_step hc hg hs
  have hst := stage_step hc hg hs
  rw [stepsLeft, stepsLeft]
  omega

end Measures

/-! ## From one event to a run -/

/-- The camera, silent and unattended. -/
def silentCamera (P : Params) : GuardedMachine Node Event :=
  (camera P).restrict fun _ e => e.isSilent

/-- A silent run has at most as many events of a kind as a measure that pays for them allows. -/
theorem silent_count {μ : Node → ℤ} {p : Event → Bool}
    (hpay : ∀ {g s e}, Counters P g s → guard P s e → e.isSilent →
      (if p e then 1 else 0) + μ (act P s e) ≤ μ s)
    (hs : (camera P).Run {} es s) (h : (silentCamera P).Run s es' t) :
    es'.countP p + μ t ≤ μ s := by
  refine h.count_le (fun s => ∃ g, Counters P g s) μ p ?_ ?_ ⟨_, counters hs⟩
  · rintro s e ⟨g, hc⟩ ⟨hg, -⟩
    exact ⟨_, hc.step g s e hg⟩
  · rintro s e ⟨g, hc⟩ ⟨hg, hsil⟩
    exact hpay hc hg hsil

theorem owed_eq {n : ℤ} (h0 : 0 ≤ n) (hn : n ≤ max 0 P.maxRebuilds) :
    owed P n + max 1 P.stallRestartS =
      (max 0 (P.maxRebuilds - n) + 1) * max 1 P.stallRestartS := by
  have : max 0 P.maxRebuilds - n = max 0 (P.maxRebuilds - n) := by omega
  rw [owed, this]
  ring

theorem pullsLeft_le {g : Tally} (hc : Counters P g s) :
    pullsLeft P s.loc s.pc ≤
      (max 0 (P.maxRebuilds - g.sinceSample) + 1) * max 1 P.stallRestartS := by
  have hl := hc.loc
  have hle : s.pc.over = false → (g.sinceSample : ℤ) ≤ max 0 P.maxRebuilds := by
    intro ho
    cases hpc : s.pc <;> rw [hpc] at hl ho <;> simp only [At] at hl
    case afterLoop | condemned | ending | exited => exact absurd ho (by simp [Pc.over])
    all_goals omega
  by_cases ho : s.pc.over = true
  · have h0 : pullsLeft P s.loc s.pc = 0 := by
      cases hpc : s.pc <;> rw [hpc] at ho <;> first | rfl | exact absurd ho (by simp [Pc.over])
    rw [h0]
    exact mul_nonneg (by omega) (le_trans zero_le_one (le_max_left _ _))
  · rw [← owed_eq (Int.natCast_nonneg _) (hle (by simpa using ho))]
    have hS : (1 : ℤ) ≤ max 1 P.stallRestartS := le_max_left _ _
    cases hpc : s.pc <;> rw [hpc] at hl <;> simp only [At] at hl <;> simp only [pullsLeft]
    case unborn => simp [hl.2.2]
    case sampled => simp [hl]
    case afterLoop | condemned | ending | exited => exact absurd (by rw [hpc]; rfl) ho
    case loopHead | pull | afterPull | eosQuery => rw [hl.2.2.1]; omega
    all_goals rw [hl.1]; omega

theorem rebuildsLeft_le {g : Tally} (hc : Counters P g s) :
    rebuildsLeft P s.loc s.pc ≤ max 0 (P.maxRebuilds - g.sinceSample) := by
  have hl := hc.loc
  cases hpc : s.pc <;> rw [hpc] at hl <;> simp only [At] at hl <;> simp only [rebuildsLeft]
  all_goals omega

/-! ## Where a silent run ends -/

/-- Until `main` is done, something other than a sample can happen. -/
theorem silent_progress (hs : SelfEnding s) (hm : s.main ≠ .finished ∧ s.main ≠ .killed) :
    ∃ e, guard P s e ∧ e.isSilent := by
  have hst : ∀ h, started P {} h = true := fun h => started_iff.mpr ⟨rfl, rfl, rfl, rfl⟩
  cases hpc : s.pc
  case unborn =>
      rcases hs.unborn hpc with h | h
      · exact ⟨.constructed {}, ⟨h, hst _⟩, nofun, rfl⟩
      · exact absurd h hm.1
  case loopHead => exact ⟨.enter, ⟨hpc, hs.up (by rw [hpc]; rfl)⟩, nofun, rfl⟩
  case pull => exact ⟨.empty, hpc, nofun, rfl⟩
  case sampled =>
      by_cases hw : s.loc.framesSeen < P.warmupFrames
      · exact ⟨.discard, ⟨hpc, hw⟩, nofun, rfl⟩
      · exact ⟨.publish _, ⟨hpc, hw, rfl⟩, nofun, rfl⟩
  case afterPull => exact ⟨.carryOn, ⟨hpc, hs.up (by rw [hpc]; rfl)⟩, nofun, rfl⟩
  case eosQuery => exact ⟨.ended, hpc, nofun, rfl⟩
  case budget =>
      by_cases hr : s.loc.rebuildsWithoutFrame ≥ P.maxRebuilds
      · exact ⟨.exhausted, ⟨hpc, hr⟩, nofun, rfl⟩
      · exact ⟨.retry, ⟨hpc, hr⟩, nofun, rfl⟩
  case backoff =>
      by_cases hd : s.loc.slept < backoffDelay s.loc.rebuildsWithoutFrame
      · exact ⟨.nap, ⟨hpc, hd, hs.up (by rw [hpc]; rfl)⟩, nofun, rfl⟩
      · exact ⟨.rested, ⟨hpc, fun h => hd h.1⟩, nofun, rfl⟩
  case napping => exact ⟨.sleep, hpc, nofun, rfl⟩
  case beforeStart => exact ⟨.tryStart, ⟨hpc, hs.up (by rw [hpc]; rfl)⟩, nofun, rfl⟩
  case starting => exact ⟨.rebuilt {}, ⟨hpc, hst _⟩, nofun, rfl⟩
  case afterLoop => exact ⟨.condemn, ⟨hpc, hs.leaving (.inl hpc)⟩, nofun, rfl⟩
  case condemned => exact ⟨.declare, hpc, nofun, rfl⟩
  case ending => exact ⟨.shutdown, hpc, nofun, rfl⟩
  case exited =>
      have hdown := hs.down.mpr hpc
      cases hmain : s.main
      case constructing => exact absurd (hs.born hmain) (by simp [hpc])
      case spinning => exact ⟨.spinReturns, ⟨hmain, hdown⟩, nofun, rfl⟩
      case returned => exact ⟨.readFlag, hmain, nofun, rfl⟩
      case destroying => exact ⟨.stop, hmain, nofun, rfl⟩
      case joining => exact ⟨.joined, ⟨hmain, hpc⟩, nofun, rfl⟩
      case finished => exact absurd hmain hm.1
      case killed => exact absurd hmain hm.2

/-- The constructor is left once. -/
theorem born_stays (h : (camera P).Run s es t) (hs : s.pc ≠ .unborn) : t.pc ≠ .unborn := by
  refine h.inv (fun s => s.pc ≠ .unborn) (fun s e hpc hg => ?_) hs
  cases e <;> first | exact hpc | exact nofun

/-- A silent, unattended run that nothing can extend has ended the node, and the exit code
tells. -/
theorem silent_end (hs : SelfEnding s) (hb : s.pc ≠ .unborn)
    (hstuck : ∀ e, guard P s e → ¬ e.isSilent) :
    s.pc = .exited ∧ s.unrecoverable = true ∧ s.exitCode = 1 := by
  have hm : s.main = .finished ∨ s.main = .killed := by
    by_contra hm
    obtain ⟨e, hg, he⟩ := silent_progress (P := P) hs (not_or.mp hm)
    exact hstuck e hg he
  have hpc : s.pc = .exited := (hs.done hm).resolve_right hb
  exact ⟨hpc, hs.flagged.mp (.inr hpc), hs.fails (by tauto)⟩

/-- **A silent camera is given up on in bounded work.**  From any state of the loop, with
`r` rebuilds since the last sample: bounds on the pulls and the rebuilds still to come; the
backoff of each rebuild; a bound on the whole run; `unrecoverable_` is up before the ROS
context is down; and a run that nothing can extend has left the loop, with a non-zero exit
code. -/
theorem silent_camera (hs : (camera P).Run {} es s) (hb : s.pc ≠ .unborn)
    (h : (camera P).Run s es' t) (hq : Unattended (es ++ es')) (hno : .sample ∉ es') :
    es'.countP Event.isPull ≤
      (max 0 (P.maxRebuilds - (tally es).sinceSample) + 1) * max 1 P.stallRestartS ∧
    es'.countP Event.isRebuild ≤ max 0 (P.maxRebuilds - (tally es).sinceSample) ∧
    (∀ e, e.isRebuild = true → guard P t e → ((tally (es ++ es')).naps : ℤ) =
      min (2 + 2 * ((tally (es ++ es')).sinceSample : ℤ)) 10) ∧
    es'.length ≤
      64 * ((max 0 (P.maxRebuilds - (tally es).sinceSample) + 1) * max 1 P.stallRestartS) + 51 ∧
    (t.rosOk = false → t.unrecoverable = true) ∧
    ((∀ e, guard P t e → ¬ e.isSilent) →
      t.pc = .exited ∧ t.unrecoverable = true ∧ t.exitCode = 1) := by
  have hrun := hs.trans h
  have hc := counters hs
  have hct := counters hrun
  have hself := selfEnding hrun hq
  have hsil : (silentCamera P).Run s es' t := by
    refine h.restrict_of fun _ e he => ⟨?_, hq e (List.mem_append_right _ he)⟩
    rintro rfl
    exact hno he
  have hpulls : es'.countP Event.isPull + pullsLeft P t.loc t.pc ≤ pullsLeft P s.loc s.pc :=
    silent_count (μ := fun s => pullsLeft P s.loc s.pc) pullsLeft_step hs hsil
  have hrebuilds :
      es'.countP Event.isRebuild + rebuildsLeft P t.loc t.pc ≤ rebuildsLeft P s.loc s.pc :=
    silent_count (μ := fun s => rebuildsLeft P s.loc s.pc) rebuildsLeft_step hs hsil
  have hsteps : es'.countP (fun _ => true) + stepsLeft P t ≤ stepsLeft P s :=
    silent_count stepsLeft_step hs hsil
  have := pullsLeft_le hc
  have := pullsLeft_nonneg hct
  have := rebuildsLeft_le hc
  have := rebuildsLeft_nonneg hct
  have hs46 := (stage_range hc).2
  have hs0 := (stage_range hct).1
  have hmain : ∀ m : MainPc, 0 ≤ m.stage ∧ m.stage ≤ 5 := fun m => by cases m <;> decide
  have hm := hmain s.main
  have hm' := hmain t.main
  rw [List.countP_true] at hsteps
  simp only [stepsLeft] at hsteps
  refine ⟨by omega, by omega, ?_, by omega, fun hd => ?_, fun hstuck => ?_⟩
  · intro e he hg
    have hl := hct.loc
    have hpc : t.pc = .starting := by
      cases e <;> first | exact hg.1 | exact absurd he (by simp [Event.isRebuild])
    rw [hpc] at hl
    obtain ⟨hr, -, hn, hd⟩ := hl
    rw [← hn, hd, hr, backoffDelay]
  · exact hself.flagged.mp (.inr (hself.down.mp hd))
  · exact silent_end hself (born_stays h hb) hstuck

/-- Two stalls, with one rebuild between them, and the way to the exit. -/
def givenUp : List Event :=
  [.enter, .empty, .carryOn, .wedged, .retry, .nap, .sleep, .nap, .sleep, .rested, .tryStart,
   .rebuilt {}, .enter, .empty, .carryOn, .wedged, .exhausted, .condemn, .declare, .shutdown,
   .spinReturns, .readFlag, .stop, .joined]

theorem silent_camera_givenUp :
    let P : Params := { stallRestartS := 1, maxRebuilds := 1 }
    let t : Node := givenUp.foldl (act P) (act P {} (.constructed {}))
    givenUp.countP Event.isPull = 2 ∧ givenUp.countP Event.isRebuild = 1 ∧
    (givenUp.countP Event.isPull : ℤ) ≤ (max 0 (1 - 0) + 1) * max 1 1 ∧
    (givenUp.countP Event.isRebuild : ℤ) ≤ max 0 (1 - 0) ∧
    t.pc = .exited ∧ t.unrecoverable = true ∧ t.exitCode = 1 := by
  intro P t
  have hs := GuardedMachine.Run.of_admits (by decide : (camera P).Admits {} [.constructed {}])
  have h := GuardedMachine.Run.of_admits
    (by decide : (camera P).Admits (act P {} (.constructed {})) givenUp)
  have hq : Unattended ([.constructed {}] ++ givenUp) := by decide
  have hstuck : ∀ e, guard P t e → ¬ e.isSilent := by
    intro e hg he
    cases e <;> simp [t, P, guard, givenUp, act, Event.isSilent, Event.isExternal] at hg he
  obtain ⟨hpulls, hrebuilds, -, -, -, hend⟩ := silent_camera hs (by decide) h hq (by decide)
  exact ⟨rfl, rfl, hpulls, hrebuilds, hend hstuck⟩

end JetsonPerception.Camera
