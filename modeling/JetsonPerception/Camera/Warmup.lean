/-
# Rebuilds between published frames

A node that publishes nothing is the zombie the end of `capture_loop` is written
against, and `max_rebuilds` is what stops it from rebuilding a dead camera for
ever.  But the counter is reset by every sample, before the warm-up discard: a
pipeline that delivers a few frames and wedges again, the failure the runbook
describes, gives the whole budget back without a frame reaching `publish()`.

The bound holds exactly as far as no pipeline is torn down in the middle of its
warm-up, with some samples delivered and all of them discarded.  `warmup ≤ 0`
rules that out, and so does a budget of no rebuilds; with any other parameters
there are runs of any number of rebuilds without a published frame.
-/
import JetsonPerception.Camera.Capture
import Mathlib.Tactic.Ring
import Mathlib.Tactic.Linarith

namespace JetsonPerception.Camera

open GuardedMachine

variable {P : Params} {es : List Event} {s t : Node}

/-- The pipeline torn down for a rebuild has delivered no sample, or has published. -/
def FinishesWarmup (P : Params) (s : Node) : Event → Prop
  | .retry => s.loc.framesSeen = 0 ∨ max 0 P.warmupFrames < s.loc.framesSeen
  | _ => True

/-! ## What a pipeline may cost in pulls -/

/-- Pulls a fresh pipeline gets before it is torn down or publishes. -/
def allowance (P : Params) : ℤ := (max 0 P.warmupFrames + 1) * max 1 P.stallRestartS

/-- Pulls for the warm-up samples still to come. -/
def remaining (P : Params) (framesSeen : ℤ) : ℤ :=
  max 0 (max 0 P.warmupFrames - framesSeen) * max 1 P.stallRestartS

/-- Pulls for the rebuilds still to come. -/
def outstanding (P : Params) (rebuilds : ℤ) : ℤ :=
  (max 0 P.maxRebuilds - rebuilds) * allowance P

theorem remaining_nonneg (n : ℤ) : 0 ≤ remaining P n :=
  mul_nonneg (le_max_left _ _) (le_trans zero_le_one (le_max_left _ _))

theorem remaining_zero : remaining P 0 + max 1 P.stallRestartS = allowance P := by
  rw [remaining, allowance, sub_zero, max_eq_right (le_max_left 0 P.warmupFrames)]
  ring

theorem remaining_succ {n : ℤ} (h : n < max 0 P.warmupFrames) :
    remaining P (n + 1) + max 1 P.stallRestartS = remaining P n := by
  have hn : max 0 (max 0 P.warmupFrames - n) = max 0 P.warmupFrames - n :=
    max_eq_right (by omega)
  have hn' : max 0 (max 0 P.warmupFrames - (n + 1)) = max 0 P.warmupFrames - (n + 1) :=
    max_eq_right (by omega)
  rw [remaining, remaining, hn, hn']
  ring

theorem remaining_over {n : ℤ} (h : max 0 P.warmupFrames ≤ n) : remaining P n = 0 := by
  rw [remaining, max_eq_left (by omega), zero_mul]

theorem patience_le_allowance : max 1 P.stallRestartS ≤ allowance P :=
  le_mul_of_one_le_left (le_trans zero_le_one (le_max_left _ _))
    (le_add_of_nonneg_left (le_max_left _ _))

theorem outstanding_zero : outstanding P 0 = max 0 P.maxRebuilds * allowance P := by
  rw [outstanding, sub_zero]

theorem outstanding_succ (n : ℤ) : outstanding P (n + 1) + allowance P = outstanding P n := by
  rw [outstanding, outstanding]
  ring

theorem outstanding_nonneg {n : ℤ} (h : n ≤ max 0 P.maxRebuilds) : 0 ≤ outstanding P n :=
  mul_nonneg (by omega) (le_trans (le_trans zero_le_one (le_max_left _ _)) patience_le_allowance)

/-- Pulls the node gets between two published frames. -/
def pullLimit (P : Params) : ℤ := max 0 P.maxRebuilds * allowance P + allowance P

/-! ## The counters against the last published frame -/

/-- The rebuild counter and the frames of the current pipeline.  On a pipeline that has
delivered nothing the counter is right; on one that has published it is back at 0 with
nothing to count; in between it says nothing. -/
structure Settled (P : Params) (g : Tally) (l : Locals) : Prop where
  seen : 0 ≤ l.framesSeen
  silent : l.framesSeen = 0 → l.rebuildsWithoutFrame = g.sincePublish
  heard : 0 < l.framesSeen → l.rebuildsWithoutFrame = 0
  published : max 0 P.warmupFrames < l.framesSeen → g.sincePublish = 0
  bound : g.sincePublish ≤ max 0 P.maxRebuilds

/-- What the pulls made so far, and those the counters still allow, come to. -/
def debt (P : Params) (g : Tally) (l : Locals) : ℤ :=
  g.pulls + outstanding P g.sincePublish + remaining P l.framesSeen +
    (max 1 P.stallRestartS - l.stalledSeconds)

def Warm (P : Params) (g : Tally) (l : Locals) : Pc → Prop
  | .unborn => l = {} ∧ g.sincePublish = 0 ∧ g.pulls = 0
  | .loopHead | .pull =>
      Settled P g l ∧ l.stalledSeconds < max 1 P.stallRestartS ∧ debt P g l ≤ pullLimit P
  | .sampled | .afterPull | .eosQuery =>
      Settled P g l ∧ l.stalledSeconds < max 1 P.stallRestartS ∧ debt P g l ≤ pullLimit P + 1
  | .budget => Settled P g l ∧ g.pulls + outstanding P g.sincePublish ≤ pullLimit P
  | .backoff | .napping | .beforeStart | .starting =>
      l.rebuildsWithoutFrame = g.sincePublish ∧ l.rebuildsWithoutFrame < P.maxRebuilds ∧
      g.pulls + outstanding P g.sincePublish ≤ pullLimit P
  | .afterLoop | .condemned | .ending | .exited =>
      g.sincePublish ≤ max 0 P.maxRebuilds ∧ (g.pulls : ℤ) ≤ pullLimit P

theorem Warm.le {g : Tally} {l : Locals} {pc : Pc} (h : Warm P g l pc) :
    g.sincePublish ≤ max 0 P.maxRebuilds ∧ (g.pulls : ℤ) ≤ pullLimit P := by
  have hA := patience_le_allowance (P := P)
  have h0 : 0 ≤ max 0 P.maxRebuilds * allowance P :=
    mul_nonneg (le_max_left _ _) (le_trans (le_trans zero_le_one (le_max_left _ _)) hA)
  have hr := remaining_nonneg (P := P) l.framesSeen
  cases pc <;> simp only [Warm] at h
  case unborn =>
      obtain ⟨-, hp, hn⟩ := h
      rw [hp, hn, pullLimit]
      exact ⟨by simp, by simp; omega⟩
  case afterLoop | condemned | ending | exited => exact h
  case backoff | napping | beforeStart | starting =>
      have ho := outstanding_nonneg (P := P) (n := g.sincePublish) (by omega)
      exact ⟨by omega, by omega⟩
  case budget =>
      have ho := outstanding_nonneg h.1.bound
      exact ⟨h.1.bound, by omega⟩
  all_goals
    have ho := outstanding_nonneg h.1.bound
    have hd := h.2.2
    rw [debt] at hd
    exact ⟨h.1.bound, by omega⟩

/-- The one place where the counter is spent: what it allows is what is outstanding. -/
theorem Settled.retry {g : Tally} {l : Locals} (h : Settled P g l)
    (hw : l.framesSeen = 0 ∨ max 0 P.warmupFrames < l.framesSeen) :
    l.rebuildsWithoutFrame = g.sincePublish := by
  rcases hw with h0 | hpub
  · exact h.silent h0
  · have := h.published hpub
    have := h.heard (by omega)
    omega

/-- A sample, discarded or published, on a settled pipeline. -/
theorem Settled.count {g g' : Tally} {l l' : Locals} (h : Settled P g l)
    (hseen : l'.framesSeen = l.framesSeen + 1) (hr : l'.rebuildsWithoutFrame = 0)
    (hp : g'.sincePublish = 0 ∨
      g'.sincePublish = g.sincePublish ∧ l.framesSeen < P.warmupFrames) :
    Settled P g' l' := by
  have := h.seen
  have := h.bound
  constructor
  · omega
  · omega
  · omega
  · omega
  · omega

theorem Warm.step {g : Tally} {e : Event} (h : Warm P g s.loc s.pc)
    (hb : s.main = .constructing → s.pc = .unborn) (hg : guard P s e)
    (hw : FinishesWarmup P s e) : Warm P (g.add e) (act P s e).loc (act P s e).pc := by
  have hle := h.le
  cases e <;> simp only [guard] at hg
  case constructed r =>
      rw [hb hg.1] at h
      obtain ⟨hl, hp, hn⟩ := h
      have h0 := remaining_zero (P := P)
      refine ⟨⟨?_, ?_, ?_, ?_, ?_⟩, ?_, ?_⟩
      all_goals
        simp_all [act, Tally.add, debt, outstanding_zero, pullLimit]
      omega
  case sample | empty =>
      rw [hg] at h
      obtain ⟨hs, hlt, hd⟩ := h
      refine ⟨⟨hs.seen, hs.silent, hs.heard, hs.published, hs.bound⟩, hlt, ?_⟩
      simp only [debt, act, Tally.add, Int.natCast_add, Int.natCast_one] at hd ⊢
      omega
  case discard =>
      rw [hg.1] at h
      obtain ⟨hs, hlt, hd⟩ := h
      have hrem := remaining_succ (P := P) (n := s.loc.framesSeen) (by omega)
      refine ⟨hs.count rfl rfl (.inr ⟨rfl, hg.2⟩), by simp [act], ?_⟩
      simp only [debt, act, Tally.add] at hd ⊢
      omega
  case publish announce =>
      rw [hg.1] at h
      obtain ⟨hs, hlt, hd⟩ := h
      have hrem := remaining_over (P := P) (n := s.loc.framesSeen + 1)
        (by have := hs.seen; omega)
      have hA := patience_le_allowance (P := P)
      refine ⟨hs.count rfl rfl (.inl rfl), by simp [act], ?_⟩
      simp only [debt, act, Tally.add, hrem, Int.natCast_zero, outstanding_zero, pullLimit]
      omega
  case ended =>
      rw [hg] at h
      obtain ⟨hs, hlt, hd⟩ := h
      have hrem := remaining_nonneg (P := P) s.loc.framesSeen
      rw [debt] at hd
      exact ⟨hs, by simp only [Tally.add]; omega⟩
  case stall =>
      rw [hg.1] at h
      obtain ⟨hs, hlt, hd⟩ := h
      refine ⟨⟨hs.seen, hs.silent, hs.heard, hs.published, hs.bound⟩, ?_, ?_⟩
      · show s.loc.stalledSeconds + 1 < max 1 P.stallRestartS
        omega
      · simp only [debt, act, Tally.add] at hd ⊢
        omega
  case wedged =>
      rw [hg.1] at h
      obtain ⟨hs, hlt, hd⟩ := h
      have hrem := remaining_nonneg (P := P) s.loc.framesSeen
      rw [debt] at hd
      exact ⟨⟨hs.seen, hs.silent, hs.heard, hs.published, hs.bound⟩,
        by simp only [Tally.add]; omega⟩
  case retry =>
      rw [hg.1] at h
      exact ⟨h.1.retry hw, by simpa [act] using hg.2, h.2⟩
  case rebuilt r =>
      rw [hg.1] at h
      obtain ⟨hr, hlt, hd⟩ := h
      have h0 := remaining_zero (P := P)
      have ho := outstanding_succ (P := P) g.sincePublish
      refine ⟨⟨le_rfl, fun _ => ?_, fun h => absurd h (lt_irrefl _), fun h => ?_, ?_⟩, ?_, ?_⟩
      · simp only [act, Tally.add, hr, Int.natCast_add, Int.natCast_one]
      · exact absurd h (by simp [act])
      · simp only [Tally.add, Int.natCast_add, Int.natCast_one]
        omega
      · simp [act]
      · simp only [debt, act, Tally.add, Int.natCast_add, Int.natCast_one]
        omega
  case rebuildFailed r =>
      rw [hg.1] at h
      obtain ⟨hr, hlt, hd⟩ := h
      exact ⟨by simp only [Tally.add, Int.natCast_add, Int.natCast_one]; omega, hle.2⟩
  case leave | interrupted | exhausted | abort | deadline => exact hle
  case nap | rested | tryStart =>
      rw [hg.1] at h
      exact h
  case sleep =>
      rw [hg] at h
      exact h
  all_goals simp_all [act, Warm, Tally.add]

theorem warm (h : ((camera P).restrict (FinishesWarmup P)).Run {} es s) :
    Warm P (tally es) s.loc s.pc := by
  refine (h.tally Tally.add (fun g s => Counters P g s ∧ Warm P g s.loc s.pc) ?_
    ⟨.init P, rfl, rfl, rfl⟩).2
  rintro g s e ⟨hc, hw⟩ ⟨hg, hf⟩
  exact ⟨hc.step g s e hg, hw.step hc.born hg hf⟩

/-- Without a warm-up, or without a budget, there is no warm-up to interrupt. -/
theorem finishesWarmup_of_params (hP : P.warmupFrames ≤ 0 ∨ P.maxRebuilds ≤ 0)
    (h : (camera P).Run {} es s) : ((camera P).restrict (FinishesWarmup P)).Run {} es s := by
  induction h with
  | refl => exact .refl
  | @snoc es s e hr hg ih =>
      refine ih.snoc e ⟨hg, ?_⟩
      cases e <;> try trivial
      have hw := warm ih
      have hc := (counters hr).loc
      rw [hg.1] at hw hc
      have hseen := hw.1.seen
      have hlt := hg.2
      have hcount := hc.1
      show s.loc.framesSeen = 0 ∨ max 0 P.warmupFrames < s.loc.framesSeen
      omega

/-! ## A camera that wedges in its warm-up -/

/-- One sample, discarded; then the stream ends, and the pipeline is rebuilt. -/
def wedgeInWarmup : List Event :=
  [.enter, .sample, .discard, .enter, .empty, .carryOn, .ended, .retry, .nap, .sleep, .nap,
   .sleep, .rested, .tryStart, .rebuilt {}]

/-- The loop is about to pull from a pipeline that has delivered nothing. -/
def Fresh (s : Node) : Prop := s.pc = .loopHead ∧ s.alive = true ∧ s.loc.framesSeen = 0

theorem Fresh.wedge (h : Fresh s) (hW : 0 < P.warmupFrames) (hM : 0 < P.maxRebuilds) :
    ∃ t, (camera P).Run s wedgeInWarmup t ∧ Fresh t := by
  obtain ⟨hpc, ha, hseen⟩ := h
  have hst : ∀ h, started P {} h = true := fun h => started_iff.mpr ⟨rfl, rfl, rfl, rfl⟩
  have ha' : s.running = true ∧ s.rosOk = true := by simpa [Node.alive] using ha
  refine ⟨_, (Run.of_admits ?_ : (camera P).Run s wedgeInWarmup _), ?_⟩
  · simp [wedgeInWarmup, Admits, camera, guard, act, hpc, ha', hseen, hW, hM, hst,
      Node.alive, backoffDelay]
  · simp [Fresh, wedgeInWarmup, camera, act, Node.alive, ha']

/-- Any number of rebuilds, and no frame handed to `publish()`. -/
theorem zombie (hW : 0 < P.warmupFrames) (hM : 0 < P.maxRebuilds) :
    ∀ n : ℕ, ∃ es s, (camera P).Run {} es s ∧ Fresh s ∧ (tally es).sincePublish = n
  | 0 => by
      have hst : started P {} {} = true := started_iff.mpr ⟨rfl, rfl, rfl, rfl⟩
      exact ⟨[.constructed {}], _, .single ⟨rfl, hst⟩, ⟨rfl, rfl, rfl⟩, rfl⟩
  | n + 1 => by
      obtain ⟨es, s, hs, hf, hn⟩ := zombie hW hM n
      obtain ⟨t, ht, hf'⟩ := hf.wedge hW hM
      refine ⟨es ++ wedgeInWarmup, t, hs.trans ht, hf', ?_⟩
      show ((es ++ wedgeInWarmup).foldl Tally.add {}).sincePublish = n + 1
      rw [List.foldl_append, ← hn]
      rfl

/-! ## The bound -/

/-- **No zombie camera**, as far as it goes: as long as no pipeline is torn down in the
middle of its warm-up, at most `max_rebuilds` rebuilds and `pullLimit` pulls separate two
published frames.  Over all runs, the bound on the rebuilds holds exactly for the parameters
that leave no warm-up to interrupt. -/
theorem rebuild_bound_iff (P : Params) :
    (∀ es s, ((camera P).restrict (FinishesWarmup P)).Run {} es s →
      (tally es).sincePublish ≤ max 0 P.maxRebuilds ∧ ((tally es).pulls : ℤ) ≤ pullLimit P) ∧
    ((∀ es s, (camera P).Run {} es s → (tally es).sincePublish ≤ max 0 P.maxRebuilds) ↔
      P.warmupFrames ≤ 0 ∨ P.maxRebuilds ≤ 0) := by
  refine ⟨fun es s h => (warm h).le, ?_, ?_⟩
  · intro hall
    by_contra hP
    obtain ⟨hW, hM⟩ := not_or.mp hP
    obtain ⟨es, s, hs, -, hn⟩ := zombie (Int.not_le.mp hW) (Int.not_le.mp hM)
      (P.maxRebuilds.toNat + 1)
    have := hall es s hs
    omega
  · intro hP es s h
    exact (warm (finishesWarmup_of_params hP h)).le.1

/-- A stream that ends after its first published frame, and is rebuilt. -/
def endsAfterWarmup : List Event :=
  [.constructed {}, .enter, .sample, .discard, .enter, .sample, .publish true, .enter, .empty,
   .carryOn, .ended, .retry, .nap, .sleep, .nap, .sleep, .rested, .tryStart, .rebuilt {}, .enter,
   .sample, .discard]

theorem rebuild_bound_iff_endsAfterWarmup :
    (tally endsAfterWarmup).sincePublish = 1 ∧ (tally endsAfterWarmup).pulls = 2 ∧
    ((tally endsAfterWarmup).sincePublish : ℤ) ≤ max 0 10 ∧
    ((tally endsAfterWarmup).pulls : ℤ) ≤ pullLimit { warmupFrames := 1 } := by
  have h : ((camera { warmupFrames := 1 }).restrict
      (FinishesWarmup { warmupFrames := 1 })).Admits {} endsAfterWarmup := by
    simp [endsAfterWarmup, Admits, restrict, camera, guard, FinishesWarmup, act, started_iff,
      backoffDelay, Node.alive]
  exact ⟨rfl, rfl, (rebuild_bound_iff { warmupFrames := 1 }).1 endsAfterWarmup _ (.of_admits h)⟩

/-- With the default parameters, eleven rebuilds without a published frame. -/
theorem rebuild_bound_broken :
    ∃ es s, (camera {}).Run {} es s ∧
      ({} : Params).maxRebuilds < (tally es).sincePublish := by
  obtain ⟨es, s, hs, -, hn⟩ := zombie (P := {}) (by decide) (by decide) 11
  exact ⟨es, s, hs, by rw [hn]; decide⟩

end JetsonPerception.Camera
