/-
# The camera node as a machine

`ArgusCameraNode::capture_loop` with `rebuild_pipeline`, and the `main` that owns
the node, as one guarded machine.  Its states are the points of the code where
another thread or the environment can make a difference; its events are what
happens there:

| point | code | events |
| :-- | :-- | :-- |
| `loopHead` | `while (running_ && rclcpp::ok())` | `enter`, `leave` |
| `pull` | `gst_app_sink_try_pull_sample(.., GST_SECOND)` | `sample`, `empty` |
| `sampled` | `if (frames_seen++ < warmup_frames_)` | `discard`, `publish` |
| `afterPull` | `if (!running_ \|\| !rclcpp::ok()) {break;}` | `interrupted`, `carryOn` |
| `eosQuery` | `!ended && ++stalled_seconds < stall_restart_s_` | `ended`, `stall`, `wedged` |
| `budget` | `rebuilds_without_frame >= max_rebuilds_ \|\| ..` | `exhausted`, `retry` |
| `backoff` | `slept < delay && running_ && rclcpp::ok()` | `nap`, `rested` |
| `napping` | `sleep_for(1 s)` | `sleep` |
| `beforeStart` | `if (!running_ \|\| !rclcpp::ok()) {return false;}` | `abort`, `tryStart` |
| `starting` | `start_pipeline()` in its `try` | `rebuilt`, `rebuildFailed` |
| `afterLoop` | `if (running_ && rclcpp::ok())` | `condemn`, `quit` |
| `condemned` | `unrecoverable_ = true` | `declare` |
| `ending` | `rclcpp::shutdown()` | `shutdown` |

`main` constructs the node, spins, reads `unrecoverable()` and destroys the node;
the environment may shut the ROS context down (`signal`) and a callback may throw
out of `spin` (`spinThrows`).

Both flags only ever fall, so the two reads of `running_ && rclcpp::ok()` may be
taken as one: a true answer was true of both at the first read, a false one is
false of both at the last.  The counters are C++ `int`s that stay within the
parameters they are compared with, so they are plain integers here.
-/
import JetsonPerception.Lib.Machine
import JetsonPerception.Camera.Pipeline

namespace JetsonPerception.Camera

/-- Where the capture thread is. -/
inductive Pc where
  | unborn | loopHead | pull | sampled | afterPull | eosQuery | budget
  | backoff | napping | beforeStart | starting
  | afterLoop | condemned | ending | exited
  deriving DecidableEq

/-- Where the main thread is: in the constructor, in `spin`, between `spin` and the
read of `unrecoverable()`, about to destroy the node, in the wait of `stop`. -/
inductive MainPc where
  | constructing | spinning | returned | destroying | joining | finished | killed
  deriving DecidableEq

/-- The local variables of `capture_loop`, and the `slept` of `rebuild_pipeline`. -/
structure Locals where
  framesSeen : ℤ := 0
  stalledSeconds : ℤ := 0
  rebuildsWithoutFrame : ℤ := 0
  announced : Bool := false
  slept : ℤ := 0
  deriving DecidableEq

/-- The node, the ROS context and the process's exit code. -/
structure Node where
  running : Bool := true
  rosOk : Bool := true
  unrecoverable : Bool := false
  handles : Handles := {}
  pc : Pc := .unborn
  loc : Locals := {}
  main : MainPc := .constructing
  exitCode : ℤ := 0
  deriving DecidableEq

/-- `running_ && rclcpp::ok()`. -/
def Node.alive (s : Node) : Bool := s.running && s.rosOk

inductive Event where
  | constructed (r : GstReplies) | constructorThrew (r : GstReplies)
  | enter | leave
  | sample | empty
  | discard | publish (announce : Bool)
  | interrupted | carryOn
  | ended | stall | wedged
  | exhausted | retry
  | nap | rested | sleep
  | abort | tryStart
  | rebuilt (r : GstReplies) | rebuildFailed (r : GstReplies)
  | condemn | quit
  | declare | shutdown
  | signal
  | spinReturns | spinThrows | readFlag | stop | joined | deadline
  deriving DecidableEq

/-- The backoff of `rebuild_pipeline`, in seconds. -/
def backoffDelay (consecutiveFailures : ℤ) : ℤ := min (2 + 2 * consecutiveFailures) 10

/-- When an event may happen. -/
def guard (P : Params) (s : Node) : Event → Prop
  | .constructed r => s.main = .constructing ∧ started P r s.handles = true
  | .constructorThrew r => s.main = .constructing ∧ started P r s.handles = false
  | .enter => s.pc = .loopHead ∧ s.alive = true
  | .leave => s.pc = .loopHead ∧ s.alive = false
  | .sample => s.pc = .pull
  | .empty => s.pc = .pull
  | .discard => s.pc = .sampled ∧ s.loc.framesSeen < P.warmupFrames
  | .publish announce =>
      s.pc = .sampled ∧ ¬ s.loc.framesSeen < P.warmupFrames ∧ announce = !s.loc.announced
  | .interrupted => s.pc = .afterPull ∧ s.alive = false
  | .carryOn => s.pc = .afterPull ∧ s.alive = true
  | .ended => s.pc = .eosQuery
  | .stall => s.pc = .eosQuery ∧ s.loc.stalledSeconds + 1 < P.stallRestartS
  | .wedged => s.pc = .eosQuery ∧ ¬ s.loc.stalledSeconds + 1 < P.stallRestartS
  | .exhausted => s.pc = .budget ∧ s.loc.rebuildsWithoutFrame ≥ P.maxRebuilds
  | .retry => s.pc = .budget ∧ ¬ s.loc.rebuildsWithoutFrame ≥ P.maxRebuilds
  | .nap => s.pc = .backoff ∧ s.loc.slept < backoffDelay s.loc.rebuildsWithoutFrame ∧ s.alive = true
  | .rested =>
      s.pc = .backoff ∧ ¬ (s.loc.slept < backoffDelay s.loc.rebuildsWithoutFrame ∧ s.alive = true)
  | .sleep => s.pc = .napping
  | .abort => s.pc = .beforeStart ∧ s.alive = false
  | .tryStart => s.pc = .beforeStart ∧ s.alive = true
  | .rebuilt r => s.pc = .starting ∧ started P r s.handles = true
  | .rebuildFailed r => s.pc = .starting ∧ started P r s.handles = false
  | .condemn => s.pc = .afterLoop ∧ s.alive = true
  | .quit => s.pc = .afterLoop ∧ s.alive = false
  | .declare => s.pc = .condemned
  | .shutdown => s.pc = .ending
  | .signal => True
  | .spinReturns => s.main = .spinning ∧ s.rosOk = false
  | .spinThrows => s.main = .spinning
  | .readFlag => s.main = .returned
  | .stop => s.main = .destroying
  | .joined => s.main = .joining ∧ s.pc = .exited
  | .deadline => s.main = .joining

instance (P : Params) (s : Node) (e : Event) : Decidable (guard P s e) := by
  cases e <;> dsimp only [guard] <;> infer_instance

/-- Where an event leads. -/
def act (P : Params) (s : Node) : Event → Node
  | .constructed r =>
      { s with handles := (startPipeline P r s.handles).1, pc := .loopHead, main := .spinning }
  | .constructorThrew r =>
      -- the members are destroyed, `~ArgusCameraNode` is not run
      { s with handles := (startPipeline P r s.handles).1, main := .finished, exitCode := 1 }
  | .enter => { s with pc := .pull }
  | .leave => { s with pc := .afterLoop }
  | .sample =>
      { s with pc := .sampled, handles := s.handles.call (.tryPullSample s.handles.appsink) }
  | .empty =>
      { s with pc := .afterPull, handles := s.handles.call (.tryPullSample s.handles.appsink) }
  | .discard =>
      { s with
        pc := .loopHead
        loc := { s.loc with
          stalledSeconds := 0, rebuildsWithoutFrame := 0
          framesSeen := s.loc.framesSeen + 1 } }
  | .publish _ =>
      { s with
        pc := .loopHead
        loc := { s.loc with
          stalledSeconds := 0, rebuildsWithoutFrame := 0
          framesSeen := s.loc.framesSeen + 1, announced := true } }
  | .interrupted => { s with pc := .afterLoop }
  | .carryOn => { s with pc := .eosQuery }
  | .ended =>
      -- `!ended &&` is short-circuited: the stall is not counted
      { s with pc := .budget, handles := s.handles.call (.isEos s.handles.appsink) }
  | .stall =>
      { s with
        pc := .loopHead, loc := { s.loc with stalledSeconds := s.loc.stalledSeconds + 1 }
        handles := s.handles.call (.isEos s.handles.appsink) }
  | .wedged =>
      { s with
        pc := .budget, loc := { s.loc with stalledSeconds := s.loc.stalledSeconds + 1 }
        handles := s.handles.call (.isEos s.handles.appsink) }
  | .exhausted => { s with pc := .afterLoop }
  | .retry =>
      { s with
        pc := .backoff, loc := { s.loc with slept := 0 }
        handles := teardownPipeline s.handles }
  | .nap => { s with pc := .napping }
  | .rested => { s with pc := .beforeStart }
  | .sleep => { s with pc := .backoff, loc := { s.loc with slept := s.loc.slept + 1 } }
  | .abort => { s with pc := .afterLoop }
  | .tryStart => { s with pc := .starting }
  | .rebuilt r =>
      { s with
        handles := (startPipeline P r s.handles).1, pc := .loopHead
        loc := { s.loc with
          rebuildsWithoutFrame := s.loc.rebuildsWithoutFrame + 1
          stalledSeconds := 0, framesSeen := 0, announced := false } }
  | .rebuildFailed r =>
      { s with handles := (startPipeline P r s.handles).1, pc := .afterLoop }
  | .condemn => { s with pc := .condemned }
  | .quit => { s with pc := .exited }
  | .declare => { s with pc := .ending, unrecoverable := true }
  | .shutdown => { s with pc := .exited, rosOk := false }
  | .signal => { s with rosOk := false }
  | .spinReturns => { s with main := .returned }
  | .spinThrows => { s with main := .destroying, exitCode := 1 }
  | .readFlag =>
      { s with main := .destroying, exitCode := if s.unrecoverable then 1 else s.exitCode }
  | .stop => { s with main := .joining, running := false }
  | .joined => { s with main := .finished, handles := teardownPipeline s.handles }
  | .deadline =>
      -- `std::_Exit(1)` takes every thread with it
      { s with main := .killed, pc := .exited, exitCode := 1 }

/-- The camera node. -/
def camera (P : Params) : GuardedMachine Node Event := ⟨guard P, act P⟩

instance (P : Params) (s : Node) (e : Event) : Decidable ((camera P).guard s e) :=
  inferInstanceAs (Decidable (guard P s e))

/-! ## What is counted along a run -/

/-- The 1 s pulls. -/
def Event.isPull : Event → Bool
  | .sample | .empty => true
  | _ => false

/-- The rebuild attempts that got as far as `start_pipeline`. -/
def Event.isRebuild : Event → Bool
  | .rebuilt _ | .rebuildFailed _ => true
  | _ => false

/-- What ends the node from outside: a signal, or an exception out of `spin`. -/
def Event.isExternal : Event → Bool
  | .signal | .spinThrows => true
  | _ => false

/-- Rebuilds since the last received sample, rebuilds and pulls since the last frame
handed to `publish()`, and 1 s sleeps since `rebuild_pipeline` was last called. -/
structure Tally where
  sinceSample : ℕ := 0
  sincePublish : ℕ := 0
  pulls : ℕ := 0
  naps : ℕ := 0

def Tally.add (g : Tally) : Event → Tally
  | .sample => { g with sinceSample := 0, pulls := g.pulls + 1 }
  | .empty => { g with pulls := g.pulls + 1 }
  | .publish _ => { g with sincePublish := 0, pulls := 0 }
  | .rebuilt _ | .rebuildFailed _ =>
      { g with sinceSample := g.sinceSample + 1, sincePublish := g.sincePublish + 1 }
  | .retry => { g with naps := 0 }
  | .sleep => { g with naps := g.naps + 1 }
  | _ => g

/-- The tally of a run from construction on. -/
def tally (es : List Event) : Tally := es.foldl Tally.add {}

@[simp] theorem tally_concat (es : List Event) (e : Event) :
    tally (es ++ [e]) = (tally es).add e := by
  simp [tally]

/-! ## The counters of the loop -/

/-- The loop has been left. -/
def Pc.over : Pc → Bool
  | .afterLoop | .condemned | .ending | .exited => true
  | _ => false

/-- What the counters mean at each point of the code. -/
def At (P : Params) (g : Tally) (alive : Bool) (l : Locals) : Pc → Prop
  | .unborn => l.stalledSeconds = 0 ∧ l.rebuildsWithoutFrame = 0 ∧ g.sinceSample = 0
  | .loopHead | .pull | .afterPull | .eosQuery =>
      0 ≤ l.stalledSeconds ∧ l.stalledSeconds < max 1 P.stallRestartS ∧
      l.rebuildsWithoutFrame = g.sinceSample ∧ l.rebuildsWithoutFrame ≤ max 0 P.maxRebuilds
  | .sampled => g.sinceSample = 0
  | .budget =>
      l.rebuildsWithoutFrame = g.sinceSample ∧ l.rebuildsWithoutFrame ≤ max 0 P.maxRebuilds
  | .backoff =>
      l.rebuildsWithoutFrame = g.sinceSample ∧ l.rebuildsWithoutFrame < P.maxRebuilds ∧
      l.slept = g.naps ∧ l.slept ≤ backoffDelay l.rebuildsWithoutFrame
  | .napping =>
      l.rebuildsWithoutFrame = g.sinceSample ∧ l.rebuildsWithoutFrame < P.maxRebuilds ∧
      l.slept = g.naps ∧ l.slept < backoffDelay l.rebuildsWithoutFrame
  | .beforeStart =>
      l.rebuildsWithoutFrame = g.sinceSample ∧ l.rebuildsWithoutFrame < P.maxRebuilds ∧
      l.slept = g.naps ∧ (alive = true → l.slept = backoffDelay l.rebuildsWithoutFrame)
  | .starting =>
      l.rebuildsWithoutFrame = g.sinceSample ∧ l.rebuildsWithoutFrame < P.maxRebuilds ∧
      l.slept = g.naps ∧ l.slept = backoffDelay l.rebuildsWithoutFrame
  | .afterLoop | .condemned | .ending | .exited => True

/-- Flags that fall keep the meaning of the counters. -/
theorem At.mono {P : Params} {g : Tally} {a a' : Bool} {l : Locals} {pc : Pc}
    (h : At P g a l pc) (ha : a' = true → a = true) : At P g a' l pc := by
  cases pc <;> first | exact h | exact ⟨h.1, h.2.1, h.2.2.1, fun h' => h.2.2.2 (ha h')⟩

/-- The counters mean what they should, and the node is being constructed exactly
until the capture thread exists. -/
structure Counters (P : Params) (g : Tally) (s : Node) : Prop where
  loc : At P g s.alive s.loc s.pc
  born : s.main = .constructing → s.pc = .unborn

theorem Counters.step {P : Params} (g : Tally) (s : Node) (e : Event) (h : Counters P g s)
    (hg : guard P s e) : Counters P (g.add e) (act P s e) := by
  obtain ⟨hl, hb⟩ := h
  cases e <;> simp only [guard] at hg
  case signal => exact ⟨hl.mono (by simp [act, Node.alive]), hb⟩
  case stop => exact ⟨hl.mono (by simp [act, Node.alive]), by simp [act]⟩
  case rested =>
      -- the loop of the backoff is left early only by a node that is being stopped
      obtain ⟨hpc, hdone⟩ := hg
      rw [hpc] at hl
      obtain ⟨hr, hlt, hn, hle⟩ := hl
      refine ⟨⟨hr, hlt, hn, fun ha => ?_⟩, fun hm => absurd (hb hm) (by simp [hpc])⟩
      exact Int.le_antisymm hle (Int.not_lt.mp fun hlt => hdone ⟨hlt, ha⟩)
  all_goals
    constructor <;> simp_all [act, At, Tally.add, Node.alive, backoffDelay] <;> omega

theorem Counters.init (P : Params) : Counters P {} {} :=
  ⟨⟨rfl, rfl, rfl⟩, fun _ => rfl⟩

/-- The counters of the loop, along every run from construction on. -/
theorem counters {P : Params} {es : List Event} {s : Node} (h : (camera P).Run {} es s) :
    Counters P (tally es) s :=
  h.tally Tally.add (Counters P) Counters.step (.init P)

end JetsonPerception.Camera
