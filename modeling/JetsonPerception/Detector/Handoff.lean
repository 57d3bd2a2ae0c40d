/-
# The frame handoff of the detector

The image callback, `worker_loop` and `~TrtDetectorNode` as one guarded machine over
`latest_frame_`, `running_`, `frame_mutex_` and `frame_cv_`.

| point of the worker | code | events |
| :-- | :-- | :-- |
| `loopHead` | `while (running_)` | `enter`, `leave` |
| `locking` | `unique_lock lk(frame_mutex_)` | `lock` |
| `testing` | `latest_frame_ \|\| !running_` | `ready`, `notReady` |
| `blocking` | `wait(lk)`, before it releases the mutex | `block` |
| `blocked` | asleep on `frame_cv_` | `spurious` |
| `waking` | woken, `wait(lk)` takes the mutex again | `relock` |
| `woken` | `if (!running_) {return;}` | `quit`, `proceed` |
| `taking` | `frame = std::move(latest_frame_)` | `take` |
| `holding` | `frame->encoding != "bgr8"` | `skip`, `process` |

The mutex is the worker's from `testing` on until it blocks, quits or has taken; the
callback holds it for its one assignment, so its section is one event, `store`.  A
notification finds the worker blocked or finds nobody.  The executor runs one callback
at a time, and has stopped when the destructor runs.
-/
import JetsonPerception.Lib.Machine
import Mathlib.Data.List.Range
import Mathlib.Order.Basic

namespace JetsonPerception.Detector

/-- What the handoff sees of a `sensor_msgs::msg::Image`: its place in the order in which
the executor delivers the messages, and its encoding. -/
structure Frame where
  arrival : ℕ
  encoding : String
  deriving DecidableEq

/-- Where the worker thread is. -/
inductive Worker where
  | loopHead | locking | testing | blocking | blocked | waking | woken | taking
  | holding (frame : Option Frame)
  | exited
  deriving DecidableEq

/-- Where the image callback is. -/
inductive Callback where
  | idle | notifying
  deriving DecidableEq

/-- Where the destructor is: not begun, after its store, after its `notify_all`, done. -/
inductive Dtor where
  | idle | flagged | joining | joined
  deriving DecidableEq

structure Node where
  running : Bool := true
  latestFrame : Option Frame := none
  worker : Worker := .loopHead
  callback : Callback := .idle
  dtor : Dtor := .idle
  /-- How many messages the executor has delivered. -/
  delivered : ℕ := 0
  deriving DecidableEq

/-- The worker owns `frame_mutex_`. -/
def Worker.locks : Worker → Bool
  | .testing | .blocking | .woken | .taking => true
  | _ => false

inductive Event where
  | enter | leave | lock | ready | notReady | block | spurious | relock | quit | proceed
  | take (frame : Option Frame)
  | skip (frame : Frame) | process (frame : Frame)
  | store (msg : Frame) | notifyOne
  | stop | notifyAll | join
  deriving DecidableEq

/-- The predicate of the wait. -/
def Node.wakes (s : Node) : Bool := s.latestFrame.isSome || !s.running

/-- When an event may happen. -/
def guard (s : Node) : Event → Prop
  | .enter => s.worker = .loopHead ∧ s.running = true
  | .leave => s.worker = .loopHead ∧ s.running = false
  | .lock => s.worker = .locking
  | .ready => s.worker = .testing ∧ s.wakes = true
  | .notReady => s.worker = .testing ∧ s.wakes = false
  | .block => s.worker = .blocking
  | .spurious => s.worker = .blocked
  | .relock => s.worker = .waking
  | .quit => s.worker = .woken ∧ s.running = false
  | .proceed => s.worker = .woken ∧ s.running = true
  | .take frame => s.worker = .taking ∧ frame = s.latestFrame
  | .skip frame => s.worker = .holding (some frame) ∧ frame.encoding ≠ "bgr8"
  | .process frame => s.worker = .holding (some frame) ∧ frame.encoding = "bgr8"
  | .store msg =>
      s.callback = .idle ∧ s.dtor = .idle ∧ s.worker.locks = false ∧ msg.arrival = s.delivered
  | .notifyOne => s.callback = .notifying
  | .stop => s.dtor = .idle ∧ s.callback = .idle
  | .notifyAll => s.dtor = .flagged
  | .join => s.dtor = .joining ∧ s.worker = .exited

instance (s : Node) (e : Event) : Decidable (guard s e) := by
  cases e <;> dsimp only [guard] <;> infer_instance

/-- A notification: the worker, if it sleeps on `frame_cv_`, is woken. -/
def Worker.notified : Worker → Worker
  | .blocked => .waking
  | w => w

/-- Where an event leads. -/
def act (s : Node) : Event → Node
  | .enter => { s with worker := .locking }
  | .leave => { s with worker := .exited }
  | .lock => { s with worker := .testing }
  | .ready => { s with worker := .woken }
  | .notReady => { s with worker := .blocking }
  | .block => { s with worker := .blocked }
  | .spurious => { s with worker := .waking }
  | .relock => { s with worker := .testing }
  | .quit => { s with worker := .exited }
  | .proceed => { s with worker := .taking }
  | .take frame => { s with worker := .holding frame, latestFrame := none }
  | .skip _ => { s with worker := .loopHead }
  | .process _ => { s with worker := .loopHead }
  | .store msg =>
      { s with latestFrame := some msg, callback := .notifying, delivered := s.delivered + 1 }
  | .notifyOne => { s with worker := s.worker.notified, callback := .idle }
  | .stop => { s with running := false, dtor := .flagged }
  | .notifyAll => { s with worker := s.worker.notified, dtor := .joining }
  | .join => { s with dtor := .joined }

/-- The detector, from the end of its constructor on. -/
def detector : GuardedMachine Node Event := ⟨guard, act⟩

instance (s : Node) (e : Event) : Decidable (detector.guard s e) :=
  inferInstanceAs (Decidable (guard s e))

/-! ## What is stored and what is taken -/

def Event.stored? : Event → Option Frame
  | .store msg => some msg
  | _ => none

def Event.taken? : Event → Option Frame
  | .take frame => frame
  | _ => none

/-- The frames stored along a run, in order. -/
def stores (es : List Event) : List Frame := es.filterMap Event.stored?

/-- The frames the worker took along a run, in order. -/
def takes (es : List Event) : List Frame := es.filterMap Event.taken?

/-- The frames stored and the frames taken so far. -/
structure Traffic where
  stored : List Frame := []
  taken : List Frame := []

def Traffic.add (g : Traffic) (e : Event) : Traffic :=
  ⟨g.stored ++ e.stored?.toList, g.taken ++ e.taken?.toList⟩

theorem traffic_eq (g : Traffic) (es : List Event) :
    es.foldl Traffic.add g = ⟨g.stored ++ stores es, g.taken ++ takes es⟩ := by
  induction es generalizing g with
  | nil => simp [stores, takes]
  | cons e es ih =>
      rw [List.foldl_cons, ih]
      simp only [Traffic.add, stores, takes, List.filterMap_cons]
      cases e.stored? <;> cases e.taken? <;> simp

/-- What the slot holds, against the traffic so far: the newest frame stored, with only
older ones taken; or nothing, and then the newest has been taken. -/
def Slot (g : Traffic) : Option Frame → Prop
  | some f => ∃ older, g.stored = older ++ [f] ∧ g.taken.Sublist older
  | none => g.taken.Sublist g.stored ∧ ∀ f ∈ g.stored.getLast?, f ∈ g.taken

/-- What the worker knows of the slot where it holds the mutex, and what is owed to it
when it sleeps. -/
def Knows (s : Node) : Worker → Prop
  | .blocking => s.latestFrame = none
  | .blocked => s.latestFrame = none ∨ s.callback = .notifying
  | .woken => s.running = true → s.latestFrame.isSome
  | .taking => s.latestFrame.isSome
  | _ => True

structure Handed (g : Traffic) (s : Node) : Prop where
  numbered : g.stored.map Frame.arrival = List.range s.delivered
  slot : Slot g s.latestFrame
  knows : Knows s s.worker

theorem Slot.sublist {g : Traffic} {o : Option Frame} (h : Slot g o) :
    g.taken.Sublist g.stored := by
  cases o with
  | none => exact h.1
  | some f =>
      obtain ⟨older, hstored, hsub⟩ := h
      rw [hstored]
      exact hsub.trans (List.sublist_append_left _ _)

/-- Storing a frame keeps the slot's meaning, whatever was in it. -/
theorem Slot.store {g : Traffic} {o : Option Frame} (h : Slot g o) (msg : Frame) :
    Slot (g.add (.store msg)) (some msg) := by
  refine ⟨g.stored, rfl, ?_⟩
  show (g.taken ++ []).Sublist g.stored
  rw [List.append_nil]
  exact h.sublist

/-- So does taking the frame there is. -/
theorem Slot.take {g : Traffic} {f : Frame} (h : Slot g (some f)) :
    Slot (g.add (.take (some f))) none := by
  obtain ⟨older, hstored, hsub⟩ := h
  constructor
  · show (g.taken ++ [f]).Sublist (g.stored ++ [])
    rw [List.append_nil, hstored]
    exact hsub.append (List.Sublist.refl [f])
  · intro f' hf'
    have : f' ∈ (g.stored ++ []).getLast? := hf'
    rw [List.append_nil, hstored, List.getLast?_concat] at this
    obtain rfl := Option.some.inj this
    exact List.mem_append_right _ (List.mem_singleton_self _)

/-- A step that neither stores nor takes only has to keep what the worker knows. -/
theorem Handed.quiet {g : Traffic} {s : Node} {e : Event} (h : Handed g s)
    (hst : e.stored? = none) (htk : e.taken? = none)
    (hdel : (act s e).delivered = s.delivered)
    (hslot : (act s e).latestFrame = s.latestFrame)
    (hk : Knows (act s e) (act s e).worker) : Handed (g.add e) (act s e) := by
  have hg : g.add e = g := by simp [Traffic.add, hst, htk]
  rw [hg]
  refine ⟨?_, ?_, hk⟩
  · rw [hdel]
    exact h.numbered
  · rw [hslot]
    exact h.slot

/-- A notification leaves the worker awake, or busy with what it knew. -/
theorem Knows.notified {s : Node} (h : Knows s s.worker) (c : Callback) (d : Dtor) :
    Knows { s with worker := s.worker.notified, callback := c, dtor := d }
      s.worker.notified := by
  cases hw : s.worker <;> rw [hw] at h <;> first | exact h | trivial

theorem Handed.step (g : Traffic) (s : Node) (e : Event) (h : Handed g s) (hg : guard s e) :
    Handed (g.add e) (act s e) := by
  have hk := h.knows
  cases e <;> simp only [guard] at hg
  case store msg =>
      obtain ⟨-, -, hfree, hnum⟩ := hg
      refine ⟨?_, h.slot.store msg, ?_⟩
      · show (g.stored ++ [msg]).map Frame.arrival = List.range (s.delivered + 1)
        rw [List.map_append, h.numbered, List.range_succ, ← hnum]
        rfl
      · show Knows (act s (.store msg)) s.worker
        cases hw : s.worker <;> simp [hw, Worker.locks] at hfree <;> simp [Knows, act]
  case take frame =>
      obtain ⟨hw, rfl⟩ := hg
      rw [hw] at hk
      obtain ⟨f, hf⟩ := Option.isSome_iff_exists.mp hk
      have hs := h.slot
      rw [hf] at hs ⊢
      refine ⟨?_, hs.take, trivial⟩
      show (g.stored ++ []).map Frame.arrival = List.range s.delivered
      rw [List.append_nil, h.numbered]
  case notReady =>
      have hnone : s.latestFrame = none := by simpa using (Bool.or_eq_false_iff.mp hg.2).1
      exact h.quiet rfl rfl rfl rfl hnone
  case ready =>
      refine h.quiet rfl rfl rfl rfl fun hrun => ?_
      show s.latestFrame.isSome
      have hpred := hg.2
      have hrun : s.running = true := hrun
      simpa [Node.wakes, hrun] using hpred
  case block =>
      rw [hg] at hk
      exact h.quiet rfl rfl rfl rfl (.inl hk)
  case proceed =>
      rw [hg.1] at hk
      exact h.quiet rfl rfl rfl rfl (hk hg.2)
  case notifyOne => exact h.quiet rfl rfl rfl rfl (hk.notified .idle s.dtor)
  case notifyAll => exact h.quiet rfl rfl rfl rfl (hk.notified s.callback .joining)
  case stop =>
      refine h.quiet rfl rfl rfl rfl ?_
      show Knows (act s .stop) s.worker
      cases hw : s.worker <;> rw [hw] at hk <;> first | exact hk | exact nofun
  case join => exact h.quiet rfl rfl rfl rfl (by cases hw : s.worker <;> simp_all [act, Knows])
  all_goals exact h.quiet rfl rfl rfl rfl trivial

theorem Handed.init : Handed {} {} := ⟨rfl, ⟨.slnil, nofun⟩, trivial⟩

theorem handed {es : List Event} {s : Node} (h : detector.Run {} es s) :
    Handed ⟨stores es, takes es⟩ s := by
  have := h.tally Traffic.add Handed Handed.step Handed.init
  rwa [traffic_eq] at this

/-! ## Newest frame wins -/

/-- The frames are numbered as they are stored. -/
theorem Handed.increasing {g : Traffic} {s : Node} (h : Handed g s) :
    g.stored.Pairwise fun f g => f.arrival < g.arrival := by
  have hmap : (g.stored.map Frame.arrival).Pairwise (· < ·) := by
    rw [h.numbered]
    exact List.pairwise_lt_range
  exact List.pairwise_map.mp hmap

/-- Every stored frame but the newest is older than the newest. -/
theorem Handed.older {g : Traffic} {s : Node} {init : List Frame} {f last : Frame}
    (h : Handed g s) (hstored : g.stored = init ++ [last]) (hf : f ∈ g.stored) :
    f = last ∨ f.arrival < last.arrival := by
  have hinc := h.increasing
  rw [hstored] at hinc hf
  rcases List.mem_append.mp hf with hf | hf
  · exact .inr ((List.pairwise_append.mp hinc).2.2 f hf last (List.mem_singleton_self _))
  · exact .inl (List.mem_singleton.mp hf)

/-- A stored frame that is neither in the slot nor taken is older than another one. -/
theorem Handed.skipped {g : Traffic} {s : Node} {f : Frame} (h : Handed g s)
    (hf : f ∈ g.stored) (hnt : f ∉ g.taken) :
    s.latestFrame = some f ∨ ∃ f' ∈ g.stored, f.arrival < f'.arrival := by
  have hs := h.slot
  cases hl : s.latestFrame with
  | some last =>
      rw [hl] at hs
      obtain ⟨init, hstored, -⟩ := hs
      rcases h.older hstored hf with rfl | hlt
      · exact .inl rfl
      · exact .inr ⟨last, by simp [hstored], hlt⟩
  | none =>
      rw [hl] at hs
      rcases List.eq_nil_or_concat' g.stored with hnil | ⟨init, last, hstored⟩
      · rw [hnil] at hf
        cases hf
      · have htaken : last ∈ g.taken := hs.2 last (by simp [hstored])
        rcases h.older hstored hf with rfl | hlt
        · exact absurd htaken hnt
        · exact .inr ⟨last, by simp [hstored], hlt⟩

/-- The frame in the slot is the newest one stored. -/
theorem Slot.newest {g : Traffic} {f : Frame} (h : Slot g (some f)) :
    g.stored.getLast? = some f := by
  obtain ⟨older, hstored, -⟩ := h
  rw [hstored, List.getLast?_concat]

/-- **Newest frame wins.**  Along every run: the frames are taken in the order of their
arrival, each at most once; each one taken is the newest stored when it is taken; one that
is never taken is still in the slot or a newer one has been stored; and a worker asleep on
`frame_cv_` misses nothing, for the slot is empty or the callback has yet to notify. -/
theorem newest_frame_wins {es : List Event} {s : Node} (h : detector.Run {} es s) :
    ((stores es).Pairwise fun f g => f.arrival < g.arrival) ∧
    ((takes es).Pairwise fun f g => f.arrival < g.arrival) ∧
    (takes es).Sublist (stores es) ∧
    (∀ es₁ frame es₂, es = es₁ ++ .take frame :: es₂ →
      frame.isSome ∧ (stores es₁).getLast? = frame) ∧
    (∀ f ∈ stores es, f ∉ takes es →
      s.latestFrame = some f ∨ ∃ f' ∈ stores es, f.arrival < f'.arrival) ∧
    (s.worker = .blocked → s.latestFrame = none ∨ s.callback = .notifying) := by
  have hh := handed h
  have hsub := hh.slot.sublist
  refine ⟨hh.increasing, hh.increasing.sublist hsub, hsub, ?_, fun f => hh.skipped, ?_⟩
  · intro es₁ frame es₂ hes
    subst hes
    obtain ⟨u, hu, ⟨hpc, rfl⟩, -⟩ := h.visit
    have hu := handed hu
    have hk := hu.knows
    rw [hpc] at hk
    obtain ⟨f, hf⟩ := Option.isSome_iff_exists.mp hk
    have hs := hu.slot
    rw [hf] at hs ⊢
    exact ⟨rfl, hs.newest⟩
  · intro hw
    have hk := hh.knows
    rwa [hw] at hk

/-- Two frames arrive while the worker is busy starting: it takes the second. -/
def overtaken : List Event :=
  [.store ⟨0, "bgr8"⟩, .notifyOne, .enter, .store ⟨1, "bgr8"⟩, .notifyOne, .lock, .ready,
    .proceed, .take (some ⟨1, "bgr8"⟩), .process ⟨1, "bgr8"⟩]

theorem newest_frame_wins_overtaken :
    takes overtaken = [⟨1, "bgr8"⟩] ∧ (takes overtaken).Sublist (stores overtaken) := by
  have h := GuardedMachine.Run.of_admits (by decide : detector.Admits {} overtaken)
  exact ⟨by decide, (newest_frame_wins h).2.2.1⟩

/-! ## Shutting down -/

/-- The destructor waits in `join()` for a worker that is asleep, and nobody is left to
notify it. -/
def Node.Hung (s : Node) : Prop := s.dtor = .joining ∧ s.worker = .blocked

/-- The destructor does not notify between the worker's test and its sleep. -/
def Timely (s : Node) (e : Event) : Prop := e = .notifyAll → s.worker ≠ .blocking

/-- Once the destructor has begun the node is stopped. -/
def Stopped (s : Node) : Prop := s.dtor ≠ .idle → s.running = false

theorem Stopped.step (s : Node) (e : Event) (h : Stopped s) (hg : guard s e) :
    Stopped (act s e) := by
  cases e
  case stop => exact fun _ => rfl
  case notifyAll => exact fun _ => h (by rw [show s.dtor = .flagged from hg]; exact nofun)
  case join => exact fun _ => h (by rw [hg.1]; exact nofun)
  all_goals exact h

theorem stopped {es : List Event} {s : Node} (h : detector.Run {} es s) : Stopped s :=
  h.inv Stopped Stopped.step (fun hd => absurd rfl hd)

/-- The destructor has notified, and the worker neither sleeps nor is about to. -/
def Roused (s : Node) : Prop :=
  s.dtor = .joining ∨ s.dtor = .joined → s.worker ≠ .blocking ∧ s.worker ≠ .blocked

theorem Worker.notified_ne {w : Worker} (h : w ≠ .blocking) :
    w.notified ≠ .blocking ∧ w.notified ≠ .blocked := by
  cases w <;> first | exact absurd rfl h | exact ⟨nofun, nofun⟩

theorem Roused.step {s : Node} {e : Event} (hs : Stopped s) (h : Roused s) (hg : guard s e)
    (ht : Timely s e) : Roused (act s e) := by
  cases e
  case notReady =>
      -- a worker that is about to sleep has seen `running_` up, so nobody has begun to stop it
      intro hd
      have hrun : s.running = false := hs (by rcases hd with hd | hd <;> exact hd ▸ nofun)
      have hpred := hg.2
      simp [Node.wakes, hrun] at hpred
  case block => exact fun hd => absurd hg (h hd).1
  case store => exact fun hd => absurd hg.2.1 (by rcases hd with hd | hd <;> exact hd ▸ nofun)
  case notifyOne => exact fun hd => Worker.notified_ne (h hd).1
  case notifyAll => exact fun _ => Worker.notified_ne (ht rfl)
  case stop => exact fun hd => by rcases hd with hd | hd <;> cases hd
  case join => exact fun _ => h (.inl hg.1)
  all_goals exact fun _ => ⟨nofun, nofun⟩

theorem Roused.not_hung {s : Node} (h : Roused s) : ¬ s.Hung :=
  fun ⟨hd, hw⟩ => (h (.inl hd)).2 hw

/-- In a run whose destructor notifies in time, the worker is roused. -/
theorem roused {es : List Event} {s : Node} (h : (detector.restrict Timely).Run {} es s) :
    Roused s := by
  have hboth : Stopped s ∧ Roused s := by
    refine h.inv_restrict (fun s => Stopped s ∧ Roused s) ?_ ⟨?_, ?_⟩
    · intro s e hs hg ht
      exact ⟨Stopped.step s e hs.1 hg, hs.2.step hs.1 hg ht⟩
    · intro hd
      exact absurd rfl hd
    · intro hd
      rcases hd with hd | hd <;> cases hd
  exact hboth.2

/-- After its `notify_all` the destructor only waits. -/
theorem notified_once {es : List Event} {s t : Node} (h : detector.Run s es t)
    (hs : s.dtor = .joining ∨ s.dtor = .joined) : t.dtor = .joining ∨ t.dtor = .joined := by
  refine h.inv (fun s => s.dtor = .joining ∨ s.dtor = .joined) (fun s e hs hg => ?_) hs
  cases e
  case stop => rcases hs with hs | hs <;> exact absurd hg.1 (hs ▸ nofun)
  case notifyAll => exact .inl rfl
  case join => exact .inr rfl
  all_goals exact hs

/-- A `notify_all` that comes in time is enough for all that may follow. -/
theorem roused_after {es es' : List Event} {s t : Node} (h : detector.Run {} es s)
    (hg : guard s .notifyAll) (hw : s.worker ≠ .blocking)
    (h' : detector.Run (act s .notifyAll) es' t) : Roused t := by
  have hstop : Stopped (act s .notifyAll) := Stopped.step s .notifyAll (stopped h) hg
  have hboth : (t.dtor = .joining ∨ t.dtor = .joined) ∧ Stopped t ∧ Roused t := by
    refine h'.inv (fun s => (s.dtor = .joining ∨ s.dtor = .joined) ∧ Stopped s ∧ Roused s)
      (fun u e hu hgu => ?_) ⟨.inl rfl, hstop, fun _ => Worker.notified_ne hw⟩
    obtain ⟨hd, hst, hr⟩ := hu
    refine ⟨notified_once (.single hgu) hd, Stopped.step u e hst hgu, hr.step hst hgu ?_⟩
    rintro rfl
    have hgu : u.dtor = .flagged := hgu
    rw [hgu] at hd
    rcases hd with hd | hd <;> cases hd
  exact hboth.2.2

/-- **The lost wake-up.**  A destructor that never notifies between the worker's test of the
predicate and its sleep is never left waiting for a sleeper; and whenever it comes to notify,
no hung state can follow exactly if the worker is not at that point. -/
theorem shutdown_hangs_iff (es : List Event) (s : Node) :
    ((detector.restrict Timely).Run {} es s → ¬ s.Hung) ∧
    (detector.Run {} es s → guard s .notifyAll →
      ((∀ es' t, detector.Run (act s .notifyAll) es' t → ¬ t.Hung) ↔ s.worker ≠ .blocking)) := by
  refine ⟨fun h => (roused h).not_hung, ?_⟩
  intro h hg
  constructor
  · intro hall hw
    have hw' : (act s .notifyAll).worker = .blocking := by
      show s.worker.notified = .blocking
      rw [hw]
      rfl
    exact hall [.block] _ (GuardedMachine.Run.single (e := Event.block) hw') ⟨rfl, rfl⟩
  · intro hw es' t h'
    exact (roused_after h hg hw h').not_hung

/-- The worker finds the slot empty and the node running; before it sleeps, the destructor
stores and notifies. -/
def lostWakeup : List Event := [.enter, .lock, .notReady, .stop, .notifyAll, .block]

theorem shutdown_can_hang : ¬ ∀ es s, detector.Run {} es s → ¬ s.Hung :=
  fun hall => hall lostWakeup _ (.of_admits (by decide)) ⟨rfl, rfl⟩

end JetsonPerception.Detector
