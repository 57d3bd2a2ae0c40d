/-
# Who releases the pipeline

`start_pipeline` stores what it has made before it can throw, and leaves the cleaning up to
whoever called it.  A failed rebuild leaves it to `stop()`, which `~ArgusCameraNode` runs; a
constructor that throws has no destructor to leave it to.

The books are kept in the log of calls: every pipeline made is owned, or has been set to NULL and
released once, and so is every reference to an appsink (`Balanced`).  Every step balances as long
as `start_pipeline` is called with both pointers null (`Owned`), so the node that is gone has
released everything, except after a constructor that threw with a pipeline made
(`pipelines_released_iff`).
-/
import JetsonPerception.Camera.Capture

namespace JetsonPerception.Camera

open GuardedMachine

/-! ## The books -/

/-- How often a pipeline has been set to NULL. -/
def Handles.nulled (h : Handles) (n : ℕ) : ℕ := h.calls.count (.setNull n)

/-- How often a pipeline has been released. -/
def Handles.freed (h : Handles) (n : ℕ) : ℕ := h.calls.count (.unrefPipeline n)

/-- How many references to a pipeline's appsink have been handed out. -/
def Handles.sinks (h : Handles) (n : ℕ) : ℕ := h.calls.count (.getByName n (some n))

/-- How many of them have been released. -/
def Handles.sinksFreed (h : Handles) (n : ℕ) : ℕ := h.calls.count (.unrefSink n)

/-- Every pipeline that was made has been set to NULL and released exactly once, and as many
references to its appsink have been released as were handed out. -/
def Released (h : Handles) : Prop :=
  ∀ n < h.created, h.nulled n = 1 ∧ h.freed n = 1 ∧ h.sinksFreed n = h.sinks n

instance (h : Handles) : Decidable (Released h) :=
  inferInstanceAs (Decidable (∀ n < h.created, _))

/-- What has not been released is what the two pointers hold. -/
structure Balanced (h : Handles) : Prop where
  made : ∀ n, h.pipeline = some n → n < h.created
  nulled : ∀ n, h.nulled n = if n < h.created ∧ h.pipeline ≠ some n then 1 else 0
  freed : ∀ n, h.freed n = if n < h.created ∧ h.pipeline ≠ some n then 1 else 0
  sinks : ∀ n, h.sinks n = h.sinksFreed n + if h.appsink = some n then 1 else 0

/-- Both pointers are null. -/
def Handles.Empty (h : Handles) : Prop := h.pipeline = none ∧ h.appsink = none

variable {P : Params} {r : GstReplies} {h : Handles}

/-- Nothing is outstanding when both pointers are null. -/
theorem Balanced.released (hb : Balanced h) (he : h.Empty) : Released h := by
  intro n hn
  obtain ⟨hp, ha⟩ := he
  refine ⟨?_, ?_, ?_⟩
  · rw [hb.nulled, if_pos ⟨hn, by rw [hp]; exact nofun⟩]
  · rw [hb.freed, if_pos ⟨hn, by rw [hp]; exact nofun⟩]
  · rw [hb.sinks, if_neg (by rw [ha]; exact nofun), Nat.add_zero]

/-! ## What the functions of the node do to them -/

/-- A call that neither makes nor releases anything. -/
def GstCall.isNeutral : GstCall → Bool
  | .setNull _ | .unrefSink _ | .unrefPipeline _ | .getByName _ (some _) => false
  | _ => true

theorem Balanced.call (hb : Balanced h) {c : GstCall} (hc : c.isNeutral = true) :
    Balanced (h.call c) := by
  have hother : ∀ c' : GstCall, c'.isNeutral = false → (h.call c).calls.count c' =
      h.calls.count c' := by
    intro c' hc'
    have hne : c ≠ c' := by
      rintro rfl
      rw [hc] at hc'
      exact Bool.noConfusion hc'
    rw [Handles.call, List.count_append, List.count_singleton, if_neg (by simpa using hne),
      Nat.add_zero]
  refine ⟨hb.made, fun n => ?_, fun n => ?_, fun n => ?_⟩
  · rw [Handles.nulled, hother _ rfl]
    exact hb.nulled n
  · rw [Handles.freed, hother _ rfl]
    exact hb.freed n
  · rw [Handles.sinks, Handles.sinksFreed, hother _ rfl, hother _ rfl]
    exact hb.sinks n

/-- A pipeline made while no other is owned. -/
theorem Balanced.parseLaunch (hb : Balanced h) (he : h.Empty) (description : String) :
    Balanced (h.parseLaunch description r) := by
  obtain ⟨hp, ha⟩ := he
  cases hr : r.parsed with
  | false =>
      have hcall := hb.call (c := .parseLaunch description none) rfl
      have heq : h.parseLaunch description r = h.call (.parseLaunch description none) := by
        rw [Handles.parseLaunch, hr]
        simp [Handles.call, hp]
      rw [heq]
      exact hcall
  | true =>
      have hcall := hb.call (c := .parseLaunch description (some h.created)) rfl
      rw [Handles.parseLaunch, if_pos hr]
      refine ⟨fun n hn => ?_, fun n => ?_, fun n => ?_, fun n => ?_⟩
      · obtain rfl := Option.some.inj hn
        exact Nat.lt_succ_self _
      · have hn := hcall.nulled n
        rw [Handles.nulled] at hn ⊢
        simp only [hn, Handles.call_created, Handles.call_pipeline, hp, ne_eq, Option.some.injEq]
        grind
      · have hn := hcall.freed n
        rw [Handles.freed] at hn ⊢
        simp only [hn, Handles.call_created, Handles.call_pipeline, hp, ne_eq, Option.some.injEq]
        grind
      · exact hcall.sinks n

/-- The reference to the appsink, handed out while no other is held. -/
theorem Balanced.getByName (hb : Balanced h) (ha : h.appsink = none) (id : ℕ) :
    Balanced (h.getByName id r) := by
  cases hr : r.sinkFound with
  | false =>
      have heq : h.getByName id r = h.call (.getByName id none) := by
        simp [Handles.getByName, Handles.call, hr, ha]
      rw [heq]
      exact hb.call rfl
  | true =>
      have hcalls : (h.getByName id r).calls = h.calls ++ [.getByName id (some id)] := by
        simp [Handles.getByName, Handles.call, hr]
      refine ⟨hb.made, fun n => ?_, fun n => ?_, fun n => ?_⟩
      · rw [Handles.nulled, hcalls, List.count_append]
        exact hb.nulled n
      · rw [Handles.freed, hcalls, List.count_append]
        exact hb.freed n
      · have hn := hb.sinks n
        rw [ha] at hn
        rw [Handles.sinks, Handles.sinksFreed] at hn ⊢
        rw [hcalls, List.count_append, List.count_append, hn]
        simp [Handles.getByName, hr, List.count_singleton]

/-- `start_pipeline` keeps the books, wherever it throws. -/
theorem Balanced.start (hb : Balanced h) (he : h.Empty) : Balanced (startPipeline P r h).1 := by
  have hlaunch := hb.parseLaunch (r := r) he (buildPipelineDescription P)
  have hsink : (h.parseLaunch (buildPipelineDescription P) r).appsink = none := by
    rw [Handles.parseLaunch_appsink]
    exact he.2
  rw [startPipeline]
  split
  case h_1 => exact hlaunch
  case h_2 => exact hlaunch
  case h_3 id _ _ =>
      have hlookup := hlaunch.getByName (r := r) hsink id
      have hplay := hlookup.call (c := .setPlaying id) rfl
      dsimp only
      split
      · exact hlookup
      · split
        · exact hplay
        · exact hplay

/-- What `teardown_pipeline` asks of GStreamer, and that it makes nothing. -/
theorem teardownPipeline_calls (h : Handles) :
    (teardownPipeline h).created = h.created ∧ (teardownPipeline h).calls = h.calls ++
      (h.pipeline.toList.map .setNull ++ h.appsink.toList.map .unrefSink ++
        h.pipeline.toList.map .unrefPipeline) := by
  rcases h with ⟨_ | p, _ | a, created, calls⟩ <;> simp [teardownPipeline, Handles.call]

/-- It is asked once for what the pointers hold. -/
theorem teardownPipeline_counts (h : Handles) (n : ℕ) :
    (teardownPipeline h).nulled n = h.nulled n + (if h.pipeline = some n then 1 else 0) ∧
    (teardownPipeline h).freed n = h.freed n + (if h.pipeline = some n then 1 else 0) ∧
    (teardownPipeline h).sinks n = h.sinks n ∧
    (teardownPipeline h).sinksFreed n =
      h.sinksFreed n + (if h.appsink = some n then 1 else 0) := by
  have hcalls := (teardownPipeline_calls h).2
  simp only [Handles.nulled, Handles.freed, Handles.sinks, Handles.sinksFreed, hcalls,
    List.count_append]
  rcases h with ⟨_ | p, _ | a, created, calls⟩ <;> simp [List.count_singleton]

/-- `teardown_pipeline` keeps the books. -/
theorem Balanced.teardown (hb : Balanced h) : Balanced (teardownPipeline h) := by
  have hcreated := (teardownPipeline_calls h).1
  obtain ⟨hp, ha⟩ := teardownPipeline_null h
  -- what was made and is not held was given back before, what is held is given back now
  have hbook : ∀ n, (if n < h.created ∧ h.pipeline ≠ some n then 1 else 0) +
      (if h.pipeline = some n then 1 else 0) = if n < h.created then 1 else 0 := by
    intro n
    by_cases hheld : h.pipeline = some n
    · simp [hheld, hb.made n hheld]
    · simp [hheld]
  constructor
  case made =>
      intro n hn
      rw [hp] at hn
      cases hn
  case nulled =>
      intro n
      rw [(teardownPipeline_counts h n).1, hb.nulled, hbook, hcreated, hp]
      simp
  case freed =>
      intro n
      rw [(teardownPipeline_counts h n).2.1, hb.freed, hbook, hcreated, hp]
      simp
  case sinks =>
      intro n
      obtain ⟨-, -, hsinks, hfreed⟩ := teardownPipeline_counts h n
      rw [hsinks, hfreed, hb.sinks, ha]
      simp

/-! ## Along a run -/

/-- The books of the node: they balance, `start_pipeline` finds both pointers null, and a node
that is gone holds nothing. -/
structure Owned (s : Node) : Prop where
  balanced : Balanced s.handles
  fresh : s.main = .constructing → s.pc = .unborn ∧ s.handles = {}
  idle : s.pc = .backoff ∨ s.pc = .napping ∨ s.pc = .beforeStart ∨ s.pc = .starting →
    s.handles.Empty
  gone : s.main = .finished → s.handles.Empty ∧ (s.pc = .unborn ∨ s.pc = .exited)

/-- The constructor throws only when it has made no pipeline. -/
def ThrowsEmpty (_ : Node) (e : Event) : Prop := ∀ r, e = .constructorThrew r → r.parsed = false

variable {s t : Node} {e : Event} {es : List Event}

theorem Handles.Empty.default : Handles.Empty {} := ⟨rfl, rfl⟩

theorem Balanced.default : Balanced {} := by
  refine ⟨nofun, fun n => ?_, fun n => ?_, fun n => ?_⟩ <;> simp [Handles.nulled, Handles.freed,
    Handles.sinks, Handles.sinksFreed]

/-- A `start_pipeline` that makes no pipeline leaves both pointers null. -/
theorem startPipeline_empty (he : h.Empty) (hr : r.parsed = false) :
    (startPipeline P r h).1.Empty := by
  rw [startPipeline, Handles.parseLaunch, hr]
  exact ⟨rfl, he.2⟩

/-- A thread that is under way belongs to a node that is neither being made nor gone. -/
theorem Owned.under_way (h : Owned s) (hpc : s.pc ≠ .unborn) (hex : s.pc ≠ .exited) :
    s.main ≠ .constructing ∧ s.main ≠ .finished := by
  constructor
  · intro hm
    exact hpc (h.fresh hm).1
  · intro hm
    rcases (h.gone hm).2 with hp | hp
    · exact hpc hp
    · exact hex hp

/-- A step of a thread that is under way, from what it does to the handles. -/
theorem Owned.move (h : Owned s) (hpc : s.pc ≠ .unborn) (hex : s.pc ≠ .exited)
    (hmain : t.main = s.main) (hb : Balanced t.handles)
    (hidle : t.pc = .backoff ∨ t.pc = .napping ∨ t.pc = .beforeStart ∨ t.pc = .starting →
      t.handles.Empty) : Owned t := by
  obtain ⟨hnew, hgone⟩ := h.under_way hpc hex
  refine ⟨hb, fun hm => ?_, hidle, fun hm => ?_⟩
  · exact absurd (hmain.symm.trans hm) hnew
  · exact absurd (hmain.symm.trans hm) hgone

theorem Owned.step (s : Node) (e : Event) (h : Owned s) (hg : guard P s e)
    (hC : ThrowsEmpty s e) : Owned (act P s e) := by
  have hb := h.balanced
  cases e <;> simp only [guard] at hg
  case constructed r =>
      have he : s.handles.Empty := by
        rw [(h.fresh hg.1).2]
        exact .default
      exact ⟨hb.start he, by simp [act], by simp [act], by simp [act]⟩
  case constructorThrew r =>
      obtain ⟨hpc, hnone⟩ := h.fresh hg.1
      have he : s.handles.Empty := by
        rw [hnone]
        exact .default
      refine ⟨hb.start he, by simp [act], fun hp => ?_,
        fun _ => ⟨startPipeline_empty he (hC r rfl), ?_⟩⟩
      · simp [act, hpc] at hp
      · exact .inl hpc
  case signal => exact ⟨hb, h.fresh, h.idle, h.gone⟩
  case spinReturns | spinThrows | readFlag | stop =>
      exact ⟨hb, by simp [act], h.idle, by simp [act]⟩
  case joined =>
      have he := teardownPipeline_null s.handles
      exact ⟨hb.teardown, by simp [act], fun _ => he, fun _ => ⟨he, .inr hg.2⟩⟩
  case deadline => exact ⟨hb, by simp [act], by simp [act], by simp [act]⟩
  case sample | empty | ended =>
      exact h.move (by simp [hg]) (by simp [hg]) rfl (hb.call rfl)
        (by simp [act])
  case stall | wedged =>
      exact h.move (by simp [hg.1]) (by simp [hg.1]) rfl (hb.call rfl)
        (by simp [act])
  case declare | shutdown =>
      exact h.move (by simp [hg]) (by simp [hg]) rfl hb (by simp [act])
  case retry =>
      exact h.move (by simp [hg.1]) (by simp [hg.1]) rfl hb.teardown
        fun _ => teardownPipeline_null s.handles
  case nap | rested | tryStart =>
      exact h.move (by simp [hg.1]) (by simp [hg.1]) rfl hb
        fun _ => h.idle (by simp [hg.1])
  case sleep =>
      exact h.move (by simp [hg]) (by simp [hg]) rfl hb
        fun _ => h.idle (by simp [hg])
  case rebuilt r | rebuildFailed r =>
      exact h.move (by simp [hg.1]) (by simp [hg.1]) rfl
        (hb.start (h.idle (by simp [hg.1]))) (by simp [act])
  all_goals
    exact h.move (by simp [hg.1]) (by simp [hg.1]) rfl hb (by simp [act])

theorem owned (h : ((camera P).restrict ThrowsEmpty).Run {} es s) : Owned s :=
  h.inv_restrict Owned Owned.step ⟨.default, fun _ => ⟨rfl, rfl⟩, by simp, by simp⟩

/-- The node object is gone and has released what it made; or it is not gone. -/
def NothingLeft (s : Node) : Prop := s.main = .finished → Released s.handles

/-- A constructor that throws with a pipeline made leaves it to nobody. -/
theorem left_behind (h : Owned s) (hg : guard P s e) (hC : ¬ ThrowsEmpty s e) :
    ¬ NothingLeft (act P s e) := by
  have hthrow : ∃ r, e = .constructorThrew r ∧ r.parsed = true := by
    by_contra hnone
    refine hC fun r hr => ?_
    cases hp : r.parsed with
    | false => rfl
    | true => exact absurd ⟨r, hr, hp⟩ hnone
  obtain ⟨r, rfl, hr⟩ := hthrow
  intro hleft
  have hhandles : (act P s (.constructorThrew r)).handles = (startPipeline P r {}).1 := by
    show (startPipeline P r s.handles).1 = _
    rw [(h.fresh hg.1).2]
  have hreleased := hleft rfl
  rw [hhandles] at hreleased
  obtain ⟨parsed, error, sinkFound, playing⟩ := r
  obtain rfl : parsed = true := hr
  have hone : (startPipeline P ⟨true, error, sinkFound, playing⟩ {}).1.created = 1 ∧
      (startPipeline P ⟨true, error, sinkFound, playing⟩ {}).1.nulled 0 = 0 := by
    cases error <;> cases sinkFound <;> cases playing <;>
      simp [startPipeline, Handles.parseLaunch, Handles.getByName, Handles.call, Handles.nulled]
  have hnulled := (hreleased 0 (by rw [hone.1]; exact Nat.one_pos)).1
  rw [hone.2] at hnulled
  cases hnulled

/-- A node that is started and stopped while a pull is out. -/
def startStop : List Event :=
  [.constructed {}, .enter, .spinThrows, .stop, .empty, .interrupted, .quit, .joined]

end JetsonPerception.Camera
