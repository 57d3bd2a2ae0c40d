/-
# The handles of the capture loop

`pipeline_` and `appsink_` are raw pointers that three functions move on two threads.  What
GStreamer asks of whoever holds such pointers is a machine of its own (`gst`): its state is what
has been made and not been released, its events are the calls, and a call is permitted when it
uses nothing that is gone, releases nothing twice, and makes a pipeline only when no other is
left.

The node's log of calls is a run of that machine, and what is not released is what the two
pointers hold (`Follows`): `start_pipeline` keeps this wherever it throws, when it is called with
both pointers null, and `teardown_pipeline` keeps it always.  In the loop the pointers hold one
pipeline and its own appsink (`HoldsAt`).
-/
import JetsonPerception.Camera.Release
import Mathlib.Logic.Function.Iterate

namespace JetsonPerception.Camera

open GuardedMachine

/-! ## What GStreamer permits -/

/-- What has been made and not been released: the pipelines, those of them that have been set to
NULL, and the references to appsinks, each under the number of its pipeline. -/
structure Objects where
  made : ℕ := 0
  pipelines : List ℕ := []
  quiet : List ℕ := []
  sinks : List ℕ := []
  deriving DecidableEq

/-- When a call is permitted. -/
def permits (g : Objects) : GstCall → Prop
  | .parseLaunch _ made =>
      -- nothing is left of the pipelines before it
      g.pipelines = [] ∧ g.sinks = [] ∧ ∀ n ∈ made, n = g.made
  | .getByName n sink => n ∈ g.pipelines ∧ ∀ m ∈ sink, m = n
  | .setPlaying n => n ∈ g.pipelines
  | .setNull n => n ∈ g.pipelines
  | .unrefSink n => n ∈ g.sinks
  | .unrefPipeline n => n ∈ g.pipelines ∧ n ∈ g.quiet ∧ n ∉ g.sinks
  | .tryPullSample sink | .isEos sink => ∃ n, sink = some n ∧ g.pipelines = [n] ∧ n ∈ g.sinks

/-- What a call does. -/
def perform (g : Objects) : GstCall → Objects
  | .parseLaunch _ (some n) =>
      { g with made := g.made + 1, pipelines := n :: g.pipelines }
  | .parseLaunch _ none => g
  | .getByName _ (some m) => { g with sinks := m :: g.sinks }
  | .getByName _ none => g
  | .setPlaying n => { g with quiet := g.quiet.filter (· ≠ n) }
  | .setNull n => { g with quiet := n :: g.quiet }
  | .unrefSink n => { g with sinks := g.sinks.erase n }
  | .unrefPipeline n =>
      { g with pipelines := g.pipelines.erase n, quiet := g.quiet.filter (· ≠ n) }
  | .tryPullSample _ | .isEos _ => g

/-- GStreamer, as far as the node's pointers go. -/
def gst : GuardedMachine Objects GstCall := ⟨permits, perform⟩

/-- The calls were permitted and have left `g`, which is what the pointers hold: a pipeline, and
no appsink but its own. -/
structure Leaves (h : Handles) (g : Objects) : Prop where
  run : gst.Run {} h.calls g
  made : g.made = h.created
  pipelines : g.pipelines = h.pipeline.toList
  sinks : g.sinks = h.appsink.toList
  paired : ∀ n, h.appsink = some n → h.pipeline = some n

/-- Every call was permitted, and what is not released is what the pointers hold. -/
def Follows (h : Handles) : Prop := ∃ g, Leaves h g

/-- The pointers hold one pipeline and its appsink. -/
def Handles.Open (h : Handles) : Prop := ∃ n, h.pipeline = some n ∧ h.appsink = some n

variable {P : Params} {r : GstReplies} {h : Handles} {g : Objects}

/-! ## The functions that move the pointers -/

theorem paired_null {pipeline : Option ℕ} : ∀ n, (none : Option ℕ) = some n → pipeline = some n :=
  fun _ hn => by cases hn

/-- A call that changes neither what there is nor the pointers. -/
theorem Leaves.call (hl : Leaves h g) {c : GstCall} (hc : permits g c)
    (hmade : (perform g c).made = g.made) (hpipelines : (perform g c).pipelines = g.pipelines)
    (hsinks : (perform g c).sinks = g.sinks) : Leaves (h.call c) (perform g c) where
  run := hl.run.snoc c hc
  made := hmade.trans hl.made
  pipelines := hpipelines.trans hl.pipelines
  sinks := hsinks.trans hl.sinks
  paired := hl.paired

/-- `gst_parse_launch`, while both pointers are null. -/
theorem Leaves.parseLaunch (hl : Leaves h g) (he : h.Empty) (description : String) :
    Follows (h.parseLaunch description r) := by
  obtain ⟨hp, ha⟩ := he
  have hnone : g.pipelines = [] := by rw [hl.pipelines, hp]; rfl
  have hsinks : g.sinks = [] := by rw [hl.sinks, ha]; rfl
  rw [Handles.parseLaunch]
  split
  case isTrue =>
      have hper : permits g (.parseLaunch description (some h.created)) := by
        refine ⟨hnone, hsinks, fun n hn => ?_⟩
        rw [hl.made]
        exact (Option.some.inj hn).symm
      refine ⟨_, hl.run.snoc _ hper, ?_, ?_, hl.sinks, fun n hn => ?_⟩
      · exact congrArg (· + 1) hl.made
      · exact congrArg (h.created :: ·) hnone
      · cases ha.symm.trans hn
  case isFalse =>
      have hper : permits g (.parseLaunch description none) :=
        ⟨hnone, hsinks, fun n hn => by cases hn⟩
      refine ⟨_, hl.run.snoc _ hper, hl.made, hnone, hl.sinks, fun n hn => ?_⟩
      cases ha.symm.trans hn

/-- `gst_bin_get_by_name`, on the pipeline just made. -/
theorem Leaves.getByName (hl : Leaves h g) {n : ℕ} (hp : h.pipeline = some n)
    (ha : h.appsink = none) : Follows (h.getByName n r) := by
  have hmem : n ∈ g.pipelines := by rw [hl.pipelines, hp]; exact List.mem_singleton_self n
  have hsinks : g.sinks = [] := by rw [hl.sinks, ha]; rfl
  have hper : permits g (.getByName n (if r.sinkFound then some n else none)) := by
    refine ⟨hmem, fun m hm => ?_⟩
    split at hm
    · exact (Option.some.inj hm).symm
    · cases hm
  refine ⟨_, hl.run.snoc _ hper, ?_, ?_, ?_, fun m hm => ?_⟩
  case refine_4 =>
      obtain rfl : m = n := hper.2 m hm
      exact hp
  all_goals
    cases hr : r.sinkFound <;>
      simp [Handles.getByName, Handles.call, gst, perform, hr, hl.made, hl.pipelines, hsinks]

/-- `start_pipeline`, while both pointers are null, wherever it throws. -/
theorem Follows.start (hf : Follows h) (he : h.Empty) : Follows (startPipeline P r h).1 := by
  obtain ⟨g₀, hl₀⟩ := hf
  have hlaunch := hl₀.parseLaunch (r := r) he (buildPipelineDescription P)
  have hsink : (h.parseLaunch (buildPipelineDescription P) r).appsink = none := by
    rw [Handles.parseLaunch_appsink]
    exact he.2
  rw [startPipeline]
  split
  case h_1 => exact hlaunch
  case h_2 => exact hlaunch
  case h_3 n hpipe _ =>
      obtain ⟨g₁, hl₁⟩ := hlaunch
      have hlookup := hl₁.getByName (r := r) hpipe hsink
      dsimp only
      split
      case isTrue => exact hlookup
      case isFalse =>
          obtain ⟨g₂, hl₂⟩ := hlookup
          have hmem : n ∈ g₂.pipelines := by
            rw [hl₂.pipelines]
            exact Option.mem_toList.mpr hpipe
          have hplay := hl₂.call (c := .setPlaying n) hmem rfl rfl rfl
          split
          case isTrue => exact ⟨_, hplay⟩
          case isFalse => exact ⟨_, hplay⟩

/-- A `start_pipeline` that returns leaves both pointers set. -/
theorem startPipeline_open (hs : started P r h = true) : (startPipeline P r h).1.Open := by
  obtain ⟨parsed, error, sinkFound, playing⟩ := r
  obtain ⟨hparsed, herror, hsink, hplaying⟩ := started_iff.mp hs
  simp only at hparsed herror hsink hplaying
  subst hparsed herror hsink hplaying
  exact ⟨h.created, rfl, rfl⟩

/-- `teardown_pipeline`, from anywhere. -/
theorem Follows.teardown (hf : Follows h) : Follows (teardownPipeline h) := by
  obtain ⟨g, hl⟩ := hf
  obtain ⟨pipeline, appsink, created, calls⟩ := h
  obtain ⟨hrun, hmade, hpipelines, hsinks, hpair⟩ := hl
  cases pipeline with
  | none =>
      cases appsink with
      | none => exact ⟨g, hrun, hmade, hpipelines, hsinks, paired_null⟩
      | some a => cases hpair a rfl
  | some p =>
      have hnull : gst.guard g (.setNull p) := by
        show p ∈ g.pipelines
        rw [hpipelines]
        exact List.mem_singleton_self p
      have hgone : g.pipelines.erase p = [] := by
        rw [hpipelines]
        exact List.erase_cons_head p []
      cases appsink with
      | none =>
          have hunref : gst.guard (gst.act g (.setNull p)) (.unrefPipeline p) := by
            refine ⟨hnull, List.mem_cons_self, ?_⟩
            show p ∉ g.sinks
            rw [hsinks]
            exact List.not_mem_nil
          exact ⟨_, (hrun.snoc _ hnull).snoc _ hunref, hmade, hgone, hsinks, paired_null⟩
      | some a =>
          obtain rfl : p = a := Option.some.inj (hpair a rfl)
          have hsink : gst.guard (gst.act g (.setNull p)) (.unrefSink p) := by
            show p ∈ g.sinks
            rw [hsinks]
            exact List.mem_singleton_self p
          have hnone : g.sinks.erase p = [] := by
            rw [hsinks]
            exact List.erase_cons_head p []
          have hunref : gst.guard (gst.act (gst.act g (.setNull p)) (.unrefSink p))
              (.unrefPipeline p) := by
            refine ⟨hnull, List.mem_cons_self, ?_⟩
            show p ∉ g.sinks.erase p
            rw [hnone]
            exact List.not_mem_nil
          exact ⟨_, ((hrun.snoc _ hnull).snoc _ hsink).snoc _ hunref, hmade, hgone, hnone,
            paired_null⟩

/-! ## Along a run -/

/-- What the pointers hold at each point of the code. -/
def HoldsAt (h : Handles) : Pc → Prop
  | .loopHead | .pull | .sampled | .afterPull | .eosQuery | .budget => h.Open
  | .backoff | .napping | .beforeStart | .starting => h.Empty
  | .unborn | .afterLoop | .condemned | .ending | .exited => True

/-- The handles of a node that has been constructed. -/
structure Kept (s : Node) : Prop where
  follows : Follows s.handles
  holds : HoldsAt s.handles s.pc
  born : s.main ≠ .constructing

variable {s t : Node} {e : Event} {es : List Event}

/-- The call with which an event asks the appsink. -/
def Event.asks (sink : Option ℕ) : Event → Option GstCall
  | .sample | .empty => some (.tryPullSample sink)
  | .ended | .stall | .wedged => some (.isEos sink)
  | _ => none

/-- A pull or an end-of-stream query, with both pointers set. -/
theorem Follows.ask (hf : Follows h) (ho : h.Open) {c : GstCall}
    (hc : c = .tryPullSample h.appsink ∨ c = .isEos h.appsink) : Follows (h.call c) := by
  obtain ⟨g, hl⟩ := hf
  obtain ⟨n, hp, ha⟩ := ho
  have hper : ∃ m, h.appsink = some m ∧ g.pipelines = [m] ∧ m ∈ g.sinks := by
    refine ⟨n, ha, ?_, ?_⟩
    · rw [hl.pipelines, hp]
      rfl
    · rw [hl.sinks, ha]
      exact List.mem_singleton_self n
  rcases hc with rfl | rfl
  · exact ⟨_, hl.call (c := .tryPullSample h.appsink) hper rfl rfl rfl⟩
  · exact ⟨_, hl.call (c := .isEos h.appsink) hper rfl rfl rfl⟩

/-- A step that leaves the handles alone. -/
theorem Kept.move (h : Kept s) (hhandles : t.handles = s.handles)
    (hholds : HoldsAt s.handles t.pc) (hborn : t.main ≠ .constructing) : Kept t := by
  refine ⟨?_, ?_, hborn⟩
  · rw [hhandles]
    exact h.follows
  · rw [hhandles]
    exact hholds

theorem Kept.step (s : Node) (e : Event) (h : Kept s) (hg : guard P s e) :
    Kept (act P s e) := by
  obtain ⟨hf, hholds, hborn⟩ := id h
  cases e <;> simp only [guard] at hg
  case constructed r | constructorThrew r => exact absurd hg.1 hborn
  case enter | discard | publish a | carryOn | nap | rested | tryStart =>
      rw [hg.1] at hholds
      exact h.move rfl hholds hborn
  case sleep =>
      rw [hg] at hholds
      exact h.move rfl hholds hborn
  case sample | empty =>
      rw [hg] at hholds
      exact ⟨hf.ask hholds (.inl rfl), hholds, hborn⟩
  case ended =>
      rw [hg] at hholds
      exact ⟨hf.ask hholds (.inr rfl), hholds, hborn⟩
  case stall | wedged =>
      rw [hg.1] at hholds
      exact ⟨hf.ask hholds (.inr rfl), hholds, hborn⟩
  case leave | interrupted | exhausted | abort | condemn | quit | declare | shutdown =>
      exact h.move rfl trivial hborn
  case retry => exact ⟨hf.teardown, teardownPipeline_null s.handles, hborn⟩
  case rebuilt r =>
      rw [hg.1] at hholds
      exact ⟨hf.start hholds, startPipeline_open hg.2, hborn⟩
  case rebuildFailed r =>
      rw [hg.1] at hholds
      exact ⟨hf.start hholds, trivial, hborn⟩
  case signal => exact h.move rfl hholds hborn
  case spinReturns | spinThrows | readFlag | stop => exact h.move rfl hholds (by simp [act])
  case joined =>
      refine ⟨hf.teardown, ?_, by simp [act]⟩
      show HoldsAt (teardownPipeline s.handles) s.pc
      rw [hg.2]
      trivial
  case deadline => exact h.move rfl trivial (by simp [act])

/-- The handles along a run that begins with a construction. -/
theorem kept (h : (camera P).Run {} (.constructed r :: es) s) : Kept s := by
  have hfirst : (camera P).Run {} ([] ++ .constructed r :: es) s := h
  obtain ⟨u, hu, hg, hrest⟩ := hfirst.visit
  obtain rfl : {} = u := Run.det .refl hu
  have hnone : Follows {} := ⟨{}, .refl, rfl, rfl, rfl, paired_null⟩
  have hbuilt : Kept (act P {} (.constructed r)) :=
    ⟨hnone.start ⟨rfl, rfl⟩, startPipeline_open hg.2, by simp [act]⟩
  exact hrest.inv Kept Kept.step hbuilt

/-- However often it is torn down, only the first time asks anything of GStreamer. -/
theorem teardownPipeline_iterate (h : Handles) (k : ℕ) :
    teardownPipeline^[k + 1] h = teardownPipeline h := by
  rw [Function.iterate_succ_apply]
  exact Function.iterate_fixed (teardownPipeline_idem h) k

/-- The handles of a node are valid. -/
structure HandlesValid (P : Params) (s : Node) : Prop where
  /-- Every call so far was permitted, and what is not released is what the pointers hold. -/
  follows : Follows s.handles
  /-- So it is after further teardowns, of which only the first does anything. -/
  again : ∀ k : ℕ, Follows (teardownPipeline^[k + 1] s.handles) ∧
    teardownPipeline^[k + 1] s.handles = teardownPipeline s.handles
  /-- A pull or a query of the end of stream asks the appsink of the pipeline in `pipeline_`. -/
  asks : ∀ e c, guard P s e → e.asks s.handles.appsink = some c →
    (act P s e).handles = s.handles.call c ∧ s.handles.Open

theorem Kept.asks (h : Kept s) (hg : guard P s e) {c : GstCall}
    (hc : e.asks s.handles.appsink = some c) :
    (act P s e).handles = s.handles.call c ∧ s.handles.Open := by
  have hholds := h.holds
  cases e <;> simp only [Event.asks, Option.some.injEq, reduceCtorEq] at hc <;>
    simp only [guard] at hg <;> subst hc
  case sample | empty | ended =>
      rw [hg] at hholds
      exact ⟨rfl, hholds⟩
  case stall | wedged =>
      rw [hg.1] at hholds
      exact ⟨rfl, hholds⟩

/-- **The handles of the capture loop stay valid** after a construction, whatever happens. -/
theorem handles_valid (h : (camera P).Run {} (.constructed r :: es) s) : HandlesValid P s := by
  have hkept := kept h
  constructor
  case follows => exact hkept.follows
  case again =>
      intro k
      have hfirst := teardownPipeline_iterate s.handles k
      rw [hfirst]
      exact ⟨hkept.follows.teardown, rfl⟩
  case asks =>
      intro e c hg hc
      exact hkept.asks hg hc

/-- A stream that ends, a rebuild that is aborted by a `stop()`, and the second teardown. -/
def abortedRebuild : List Event :=
  [.enter, .empty, .carryOn, .ended, .retry, .nap, .spinThrows, .stop, .sleep, .rested, .abort,
   .quit, .joined]

theorem handles_valid_abortedRebuild :
    HandlesValid {} ((.constructed {} :: abortedRebuild).foldl (act {}) {}) := by
  have hadmits : (camera {}).Admits {} (.constructed {} :: abortedRebuild) := by decide
  exact handles_valid (.of_admits hadmits)

end JetsonPerception.Camera
