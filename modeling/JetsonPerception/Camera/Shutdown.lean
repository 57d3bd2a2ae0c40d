/-
# After `running_` has fallen

From the moment `stop()` clears `running_`, wherever the capture thread is, every test of the
flag that is still before it fails.  What is left of the loop is a small graph without a cycle
(`windDown`), and what the thread can still do is read off it: one timed wait, one frame, one
start of a pipeline that was already past its test, and out.  What makes the join of `stop()` late
is then a call that takes long: of GStreamer, or of ROS, where `publish()` spends most of its time.

Each bound is a measure of the points of the code that pays for the events it counts (`Pays`).
-/
import JetsonPerception.Camera.Capture
import Mathlib.Algebra.Order.Field.Rat
import Mathlib.Tactic.Linarith
import Mathlib.Tactic.NormNum

namespace JetsonPerception.Camera

open GuardedMachine

/-! ## What is counted -/

/-- The events of the capture thread. -/
def Event.isCapture : Event → Bool
  | .constructed _ | .constructorThrew _ | .signal | .spinReturns | .spinThrows | .readFlag
  | .stop | .joined | .deadline => false
  | _ => true

/-- The timed waits: a pull and a sleep of the backoff, 1 s each. -/
def Event.isWait : Event → Bool
  | .sample | .empty | .sleep => true
  | _ => false

def Event.isPublish : Event → Bool
  | .publish _ => true
  | _ => false

/-- What asks something of GStreamer besides the pull: a sample is mapped or released, the end of
stream is asked for, a pipeline is torn down or started. -/
def Event.asksGst : Event → Bool
  | .discard | .publish _ | .ended | .stall | .wedged | .retry | .rebuilt _
  | .rebuildFailed _ => true
  | _ => false

/-- What takes its time elsewhere: `publish()` copies the image and hands it to its publisher, and
`report_rate()` is with it; `rclcpp::shutdown()`. -/
def Event.worksInRos : Event → Bool
  | .publish _ | .shutdown => true
  | _ => false

/-! ## What is left of the loop -/

/-- The moves of the capture thread of a node that has been told to stop. -/
def windDown : Pc → Event → Option Pc
  | .loopHead, .leave => some .afterLoop
  | .pull, .sample => some .sampled
  | .pull, .empty => some .afterPull
  | .sampled, .discard => some .loopHead
  | .sampled, .publish _ => some .loopHead
  | .afterPull, .interrupted => some .afterLoop
  | .eosQuery, .ended => some .budget
  | .eosQuery, .stall => some .loopHead
  | .eosQuery, .wedged => some .budget
  | .budget, .exhausted => some .afterLoop
  | .budget, .retry => some .backoff
  | .backoff, .rested => some .beforeStart
  | .napping, .sleep => some .backoff
  | .beforeStart, .abort => some .afterLoop
  | .starting, .rebuilt _ => some .loopHead
  | .starting, .rebuildFailed _ => some .afterLoop
  | .afterLoop, .quit => some .exited
  | .condemned, .declare => some .ending
  | .ending, .shutdown => some .exited
  | _, _ => none

/-- The node has been told to stop. -/
structure Stopped (s : Node) : Prop where
  running : s.running = false
  born : s.main ≠ .constructing

variable {P : Params} {s t : Node} {e : Event} {es : List Event}

theorem Stopped.alive (h : Stopped s) : s.alive = false := by
  rw [Node.alive, h.running, Bool.false_and]

theorem Stopped.step (h : Stopped s) (hg : guard P s e) : Stopped (act P s e) := by
  obtain ⟨hrun, hborn⟩ := h
  cases e with
  | constructed r | constructorThrew r => exact absurd hg.1 hborn
  | stop => exact ⟨rfl, nofun⟩
  | spinReturns | spinThrows | readFlag | joined | deadline => exact ⟨hrun, nofun⟩
  | _ => exact ⟨hrun, hborn⟩

/-- The capture thread moves as in `windDown`; the other threads leave it where it is, or end it
with the process. -/
theorem Stopped.moves (h : Stopped s) (hg : guard P s e) :
    (e.isCapture = true ∧ windDown s.pc e = some (act P s e).pc) ∨
      (e.isCapture = false ∧ ((act P s e).pc = s.pc ∨ (act P s e).pc = .exited)) := by
  have halive := h.alive
  cases e <;> simp only [guard, halive] at hg
  case constructed r | constructorThrew r => exact absurd hg.1 h.born
  case enter | carryOn | nap | tryStart | condemn => simp at hg
  case signal | spinReturns | spinThrows | readFlag | stop | joined =>
      exact .inr ⟨rfl, .inl rfl⟩
  case deadline => exact .inr ⟨rfl, .inr rfl⟩
  case sample | empty | ended | sleep | declare | shutdown => exact .inl ⟨rfl, by rw [hg]; rfl⟩
  all_goals exact .inl ⟨rfl, by rw [hg.1]; rfl⟩

/-- Wherever it is, the capture thread can move until it has returned. -/
theorem Stopped.can_move (h : Stopped s) (hpc : s.pc ≠ .unborn) (hex : s.pc ≠ .exited) :
    ∃ e, e.isCapture = true ∧ guard P s e := by
  have halive := h.alive
  cases hp : s.pc with
  | unborn => exact absurd hp hpc
  | exited => exact absurd hp hex
  | loopHead => exact ⟨.leave, rfl, hp, halive⟩
  | pull => exact ⟨.empty, rfl, hp⟩
  | sampled =>
      by_cases hw : s.loc.framesSeen < P.warmupFrames
      · exact ⟨.discard, rfl, hp, hw⟩
      · exact ⟨.publish !s.loc.announced, rfl, hp, hw, rfl⟩
  | afterPull => exact ⟨.interrupted, rfl, hp, halive⟩
  | eosQuery => exact ⟨.ended, rfl, hp⟩
  | budget =>
      by_cases hb : s.loc.rebuildsWithoutFrame ≥ P.maxRebuilds
      · exact ⟨.exhausted, rfl, hp, hb⟩
      · exact ⟨.retry, rfl, hp, hb⟩
  | backoff => exact ⟨.rested, rfl, hp, fun hsleep => by simp [halive] at hsleep⟩
  | napping => exact ⟨.sleep, rfl, hp⟩
  | beforeStart => exact ⟨.abort, rfl, hp, halive⟩
  | starting =>
      cases hs : started P {} s.handles with
      | true => exact ⟨.rebuilt {}, rfl, hp, hs⟩
      | false => exact ⟨.rebuildFailed {}, rfl, hp, hs⟩
  | afterLoop => exact ⟨.quit, rfl, hp, halive⟩
  | condemned => exact ⟨.declare, rfl, hp⟩
  | ending => exact ⟨.shutdown, rfl, hp⟩

/-! ## Measures -/

/-- Every event that `p` counts is paid for out of `μ`. -/
structure Pays (p : Event → Bool) (μ : Pc → ℤ) : Prop where
  capture : ∀ e, p e = true → e.isCapture = true
  nonneg : ∀ pc, 0 ≤ μ pc
  exited : μ .exited = 0
  move : ∀ pc e pc', windDown pc e = some pc' → (if p e then 1 else 0) + μ pc' ≤ μ pc

/-- What is paid for happens no more often than the measure says. -/
theorem Pays.count_le {p : Event → Bool} {μ : Pc → ℤ} (hp : Pays p μ) (hs : Stopped s)
    (h : (camera P).Run s es t) : es.countP p ≤ μ s.pc := by
  have hpaid : es.countP p + μ t.pc ≤ μ s.pc := by
    refine h.count_le Stopped (fun s => μ s.pc) p (fun s e hs hg => hs.step hg) ?_ hs
    intro s e hs hg
    rcases hs.moves hg with ⟨-, hmove⟩ | ⟨hother, hpc⟩
    · exact hp.move _ _ _ hmove
    · have hpe : p e = false := by
        cases hpe : p e with
        | false => rfl
        | true => rw [hp.capture e hpe] at hother; exact Bool.noConfusion hother
      show (if p e then 1 else 0) + μ (act P s e).pc ≤ μ s.pc
      rw [hpe]
      rcases hpc with hpc | hpc
      · rw [hpc]
        simp
      · rw [hpc, hp.exited]
        simpa using hp.nonneg s.pc
  have := hp.nonneg t.pc
  omega

/-- Timed waits still to come. -/
def waitsLeft : Pc → ℤ
  | .pull | .napping => 1
  | _ => 0

def publishesLeft : Pc → ℤ
  | .pull | .sampled => 1
  | _ => 0

/-- Starts of a pipeline still to come: the one that is past its test. -/
def startsLeft : Pc → ℤ
  | .starting => 1
  | _ => 0

/-- Other requests to GStreamer still to come. -/
def asksLeft : Pc → ℤ
  | .eosQuery => 2
  | .pull | .sampled | .budget | .starting => 1
  | _ => 0

/-- Work in ROS still to come. -/
def rosLeft : Pc → ℤ
  | .pull | .sampled | .condemned | .ending => 1
  | _ => 0

/-- Steps to the end of the thread. -/
def stepsToExit : Pc → ℤ
  | .unborn | .exited => 0
  | .afterLoop | .ending => 1
  | .loopHead | .afterPull | .beforeStart | .condemned => 2
  | .sampled | .backoff | .starting => 3
  | .pull | .budget | .napping => 4
  | .eosQuery => 5

theorem waits_paid : Pays Event.isWait waitsLeft where
  capture e he := by cases e <;> first | rfl | exact Bool.noConfusion he
  nonneg pc := by cases pc <;> decide
  exited := rfl
  move pc e pc' h := by
    unfold windDown at h
    split at h <;> cases h <;> exact le_refl _

theorem publishes_paid : Pays Event.isPublish publishesLeft where
  capture e he := by cases e <;> first | rfl | exact Bool.noConfusion he
  nonneg pc := by cases pc <;> decide
  exited := rfl
  move pc e pc' h := by
    unfold windDown at h
    split at h <;> cases h <;> first | exact le_refl _ | exact zero_le_one

theorem starts_paid : Pays Event.isRebuild startsLeft where
  capture e he := by cases e <;> first | rfl | exact Bool.noConfusion he
  nonneg pc := by cases pc <;> decide
  exited := rfl
  move pc e pc' h := by
    unfold windDown at h
    split at h <;> cases h <;> exact le_refl _

theorem asks_paid : Pays Event.asksGst asksLeft where
  capture e he := by cases e <;> first | rfl | exact Bool.noConfusion he
  nonneg pc := by cases pc <;> decide
  exited := rfl
  move pc e pc' h := by
    unfold windDown at h
    split at h <;> cases h <;> simp [Event.asksGst, asksLeft]

theorem ros_paid : Pays Event.worksInRos rosLeft where
  capture e he := by cases e <;> first | rfl | exact Bool.noConfusion he
  nonneg pc := by cases pc <;> decide
  exited := rfl
  move pc e pc' h := by
    unfold windDown at h
    split at h <;> cases h <;> simp [Event.worksInRos, rosLeft]

theorem steps_paid : Pays Event.isCapture stepsToExit where
  capture e he := he
  nonneg pc := by cases pc <;> decide
  exited := rfl
  move pc e pc' h := by
    unfold windDown at h
    split at h <;> cases h <;> simp [Event.isCapture, stepsToExit]

/-! ## Before the capture thread exists -/

/-- Until there is a capture thread nobody has called `stop()`. -/
structure Unborn (s : Node) : Prop where
  unborn : s.pc = .unborn → s.running = true ∧ (s.main = .constructing ∨ s.main = .finished)
  constructing : s.main = .constructing → s.pc = .unborn

theorem Unborn.step (s : Node) (e : Event) (h : Unborn s) (hg : guard P s e) :
    Unborn (act P s e) := by
  obtain ⟨hunborn, hcons⟩ := h
  cases e <;> simp only [guard] at hg
  case constructed r => exact ⟨by simp [act], by simp [act]⟩
  case constructorThrew r =>
      exact ⟨fun _ => ⟨(hunborn (hcons hg.1)).1, .inr rfl⟩, by simp [act]⟩
  case signal => exact ⟨hunborn, hcons⟩
  case spinReturns =>
      refine ⟨fun hpc => ?_, by simp [act]⟩
      rcases (hunborn hpc).2 with hm | hm <;> cases hm.symm.trans hg.1
  case spinThrows | readFlag | stop =>
      refine ⟨fun hpc => ?_, by simp [act]⟩
      rcases (hunborn hpc).2 with hm | hm <;> cases hm.symm.trans hg
  case joined =>
      refine ⟨fun hpc => ?_, by simp [act]⟩
      cases hg.2.symm.trans hpc
  case deadline => exact ⟨by simp [act], by simp [act]⟩
  case sample | empty | ended | sleep | declare | shutdown =>
      refine ⟨by simp [act], fun hm => ?_⟩
      cases hg.symm.trans (hcons hm)
  all_goals
    refine ⟨by simp [act], fun hm => ?_⟩
    cases hg.1.symm.trans (hcons hm)

theorem unborn (h : (camera P).Run {} es s) : Unborn s :=
  h.inv Unborn Unborn.step ⟨fun _ => ⟨rfl, .inl rfl⟩, fun _ => rfl⟩

theorem stopped (h : (camera P).Run {} es s) (hs : s.running = false) : Stopped s := by
  refine ⟨hs, fun hm => ?_⟩
  have hrun := ((unborn h).unborn ((unborn h).constructing hm)).1
  rw [hs] at hrun
  exact Bool.noConfusion hrun

/-! ## The join -/

/-- How long an event took, in seconds: inside calls of GStreamer, and elsewhere. -/
structure Span where
  gst : ℚ
  own : ℚ

/-- How long each event of a run took: the sleep its second; GStreamer no time unless it is asked
something; and what is neither the sleep nor work in ROS (counters, tests, log lines) none
elsewhere. -/
structure Timed (timed : List (Event × Span)) : Prop where
  sleep : ∀ d, (Event.sleep, d) ∈ timed → d.own ≤ 1
  unasked : ∀ e d, (e, d) ∈ timed → e.isPull = false → e.asksGst = false → d.gst ≤ 0
  quick : ∀ e d, (e, d) ∈ timed → e ≠ .sleep → e.worksInRos = false → d.own ≤ 0

/-- The time the capture thread took. -/
def elapsed (timed : List (Event × Span)) : ℚ :=
  ((timed.filter fun x => x.1.isCapture).map fun x => x.2.gst + x.2.own).sum

/-- A call of GStreamer blocks: a pull outlasts its timeout, or another takes over 2 s. -/
def Blocks (x : Event × Span) : Prop :=
  (x.1.isPull = true ∧ 1 < x.2.gst) ∨ (x.1.asksGst = true ∧ 2 < x.2.gst)

/-- What is done in ROS takes over 2 s. -/
def Lingers (x : Event × Span) : Prop := x.1.worksInRos = true ∧ 2 < x.2.own

/-- A pull or another request. -/
theorem gst_le {timed : List (Event × Span)} (ht : Timed timed) {d : Span}
    (hd : (e, d) ∈ timed) (hb : ¬ Blocks (e, d)) :
    d.gst ≤ (if e.isPull then 1 else 0) + 2 * (if e.asksGst then 1 else 0) := by
  obtain ⟨hpull, hask⟩ := not_or.mp hb
  by_cases hp : e.isPull = true
  · have hone : d.gst ≤ 1 := not_lt.mp fun hlt => hpull ⟨hp, hlt⟩
    rw [if_pos hp]
    split <;> linarith
  · by_cases ha : e.asksGst = true
    · have htwo : d.gst ≤ 2 := not_lt.mp fun hlt => hask ⟨ha, hlt⟩
      rw [if_neg hp, if_pos ha]
      linarith
    · have hzero := ht.unasked e d hd (by simpa using hp) (by simpa using ha)
      rw [if_neg hp, if_neg ha]
      linarith

/-- The sleep, or work in ROS. -/
theorem own_le {timed : List (Event × Span)} (ht : Timed timed) {d : Span}
    (hd : (e, d) ∈ timed) (hl : ¬ Lingers (e, d)) :
    d.own ≤ (if e = .sleep then 1 else 0) + 2 * (if e.worksInRos then 1 else 0) := by
  by_cases hs : e = .sleep
  · subst hs
    have hone := ht.sleep d hd
    rw [if_pos rfl]
    split <;> linarith
  · by_cases hr : e.worksInRos = true
    · have htwo : d.own ≤ 2 := not_lt.mp fun hlt => hl ⟨hr, hlt⟩
      rw [if_neg hs, if_pos hr]
      linarith
    · have hzero := ht.quick e d hd hs (by simpa using hr)
      rw [if_neg hs, if_neg hr]
      linarith

/-- A wait is a pull or a sleep. -/
theorem isWait_eq (e : Event) : (if e.isWait then (1 : ℚ) else 0) =
    (if e.isPull then 1 else 0) + (if e = .sleep then 1 else 0) := by
  cases e <;> simp [Event.isWait, Event.isPull]

/-- Where nothing takes long, a wait takes at most 1 s and all else at most 2 s. -/
theorem elapsed_le {timed : List (Event × Span)} (ht : Timed timed)
    (hshort : ∀ x ∈ timed, ¬ (Blocks x ∨ Lingers x)) :
    elapsed timed ≤ (timed.map Prod.fst).countP Event.isWait +
      2 * (timed.map Prod.fst).countP Event.asksGst +
      2 * (timed.map Prod.fst).countP Event.worksInRos := by
  induction timed with
  | nil => simp [elapsed]
  | cons x timed ih =>
      obtain ⟨e, d⟩ := x
      obtain ⟨hb, hl⟩ := not_or.mp (hshort _ List.mem_cons_self)
      have hgst := gst_le ht List.mem_cons_self hb
      have hown := own_le ht List.mem_cons_self hl
      have hwait := isWait_eq e
      have htail := ih ⟨fun d hd => ht.sleep d (List.mem_cons_of_mem _ hd),
        fun e d hd => ht.unasked e d (List.mem_cons_of_mem _ hd),
        fun e d hd => ht.quick e d (List.mem_cons_of_mem _ hd)⟩
        fun x hx => hshort x (List.mem_cons_of_mem _ hx)
      have hcons : elapsed ((e, d) :: timed) =
          (if e.isCapture then d.gst + d.own else 0) + elapsed timed := by
        cases hc : e.isCapture <;> simp [elapsed, hc]
      have hone : (if e.isCapture then d.gst + d.own else 0) ≤ (if e.isWait then 1 else 0) +
          2 * (if e.asksGst then 1 else 0) + 2 * (if e.worksInRos then 1 else 0) := by
        have hnonneg : (0 : ℚ) ≤ (if e.isWait then 1 else 0) +
            2 * (if e.asksGst then 1 else 0) + 2 * (if e.worksInRos then 1 else 0) := by
          positivity
        split <;> linarith
      rw [hcons, List.map_cons, List.countP_cons, List.countP_cons, List.countP_cons]
      push_cast
      linarith

/-! ## The shutdown request -/

/-- From `s` on, the shutdown request has been honoured along `es`. -/
structure Honoured (P : Params) (s : Node) (es : List Event) (t : Node) : Prop where
  waits : es.countP Event.isWait ≤ 1
  publishes : es.countP Event.isPublish ≤ 1
  starts : es.countP Event.isRebuild ≤ 1
  past_test : 0 < es.countP Event.isRebuild → s.pc = .starting
  steps : es.countP Event.isCapture ≤ 5
  leaves : t.pc ≠ .exited → ∃ e, e.isCapture = true ∧ guard P t e
  join : ∀ timed, timed.map Prod.fst = es → Timed timed → 5 < elapsed timed →
    ∃ x ∈ timed, Blocks x ∨ Lingers x

/-- **The shutdown request is honoured promptly**, at whatever point `running_` fell; the join is
late only if a call of GStreamer blocks or the work in ROS takes long. -/
theorem shutdown_honoured {es₀ : List Event} (h₀ : (camera P).Run {} es₀ s)
    (hs : s.running = false) (h : (camera P).Run s es t) : Honoured P s es t := by
  have hstop := stopped h₀ hs
  have hstop' : Stopped t := h.inv Stopped (fun s e hs hg => hs.step hg) hstop
  have hwaits := waits_paid.count_le hstop h
  have hasks := asks_paid.count_le hstop h
  have hros := ros_paid.count_le hstop h
  have hstarts := starts_paid.count_le hstop h
  have hwaits_le : waitsLeft s.pc ≤ 1 := by cases s.pc <;> decide
  have hbusy_le : asksLeft s.pc + rosLeft s.pc ≤ 2 := by cases s.pc <;> decide
  have hstarts_le : startsLeft s.pc ≤ 1 := by cases s.pc <;> decide
  constructor
  case waits => omega
  case publishes =>
      have hle := publishes_paid.count_le hstop h
      have hone : publishesLeft s.pc ≤ 1 := by cases s.pc <;> decide
      omega
  case starts => omega
  case past_test =>
      intro hpos
      have hleft : 0 < startsLeft s.pc := by omega
      revert hleft
      cases s.pc <;> simp [startsLeft]
  case steps =>
      have hle := steps_paid.count_le hstop h
      have hfive : stepsToExit s.pc ≤ 5 := by cases s.pc <;> decide
      omega
  case leaves =>
      intro hex
      refine hstop'.can_move (fun hpc => ?_) hex
      have hrun := ((unborn (h₀.trans h)).unborn hpc).1
      rw [hstop'.running] at hrun
      exact Bool.noConfusion hrun
  case join =>
      intro timed hes ht hlong
      by_contra hnone
      have hle := elapsed_le ht fun x hx hlong => hnone ⟨x, hx, hlong⟩
      rw [hes] at hle
      have hw : (es.countP Event.isWait : ℚ) ≤ 1 := by exact_mod_cast hwaits.trans hwaits_le
      have hbusy : (es.countP Event.asksGst + es.countP Event.worksInRos : ℚ) ≤ 2 := by
        exact_mod_cast (add_le_add hasks hros).trans hbusy_le
      linarith

/-- A node that is stopped while a pull is out. -/
def stopInPull : List Event := [.constructed {}, .enter, .spinThrows, .stop]

/-- The pull comes back with a frame. -/
def lastFrame : List Event := [.sample, .discard, .leave, .quit]

theorem shutdown_honoured_pull : Honoured {} (stopInPull.foldl (act {}) {}) lastFrame
    (lastFrame.foldl (act {}) (stopInPull.foldl (act {}) {})) := by
  have hstop : (camera {}).Admits {} stopInPull := by decide
  have hlast : (camera {}).Admits (stopInPull.foldl (act {}) {}) lastFrame := by decide
  exact shutdown_honoured (.of_admits hstop) rfl (.of_admits hlast)

/-- Frames are published from the first on. -/
def eager : Params := { warmupFrames := 0 }

/-- That frame is published, which takes 6 s in ROS; nothing else takes any time. -/
def slowPublish : List (Event × Span) :=
  [(.sample, ⟨0, 0⟩), (.publish true, ⟨0, 6⟩), (.leave, ⟨0, 0⟩), (.quit, ⟨0, 0⟩)]

/-- No call of GStreamer takes any time there, and nothing but the frame does in ROS. -/
theorem slowPublish_spans : ∀ x ∈ slowPublish,
    x.2.gst ≤ 0 ∧ (x.1.worksInRos = false → x.2.own ≤ 0) := by
  simp [slowPublish, Event.worksInRos]

/-- The join is late, and no call of GStreamer blocks. -/
theorem shutdown_late : ¬ ∀ P es₀ s es t, (camera P).Run {} es₀ s → s.running = false →
    (camera P).Run s es t → ∀ timed, timed.map Prod.fst = es → Timed timed →
      5 < elapsed timed → ∃ x ∈ timed, Blocks x := by
  intro hall
  have hstop : (camera eager).Admits {} stopInPull := by decide
  have hlast : (camera eager).Admits (stopInPull.foldl (act eager) {})
      (slowPublish.map Prod.fst) := by decide
  have htimed : Timed slowPublish := by
    constructor
    case sleep =>
      intro d hd
      exact ((slowPublish_spans _ hd).2 rfl).trans zero_le_one
    case unasked =>
      intro e d hd _ _
      exact (slowPublish_spans _ hd).1
    case quick =>
      intro e d hd _ hros
      exact (slowPublish_spans _ hd).2 hros
  have hlong : 5 < elapsed slowPublish := by
    norm_num [elapsed, slowPublish, Event.isCapture]
  obtain ⟨x, hx, hblocks⟩ :=
    hall eager _ _ _ _ (.of_admits hstop) rfl (.of_admits hlast) slowPublish rfl htimed hlong
  have hgst := (slowPublish_spans x hx).1
  rcases hblocks with ⟨-, hpull⟩ | ⟨-, hask⟩ <;> linarith

end JetsonPerception.Camera
