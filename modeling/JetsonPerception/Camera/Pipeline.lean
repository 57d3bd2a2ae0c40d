/-
# The GStreamer pipeline of the camera node

`ArgusCameraNode` keeps two raw pointers, `pipeline_` and `appsink_`, and three
of its functions move them: `start_pipeline`, `teardown_pipeline` and the pull
of the capture loop.  Here they are pure functions on `Handles`.  A pipeline is
known by its number of creation; `calls` is the log of everything the node has
asked of GStreamer, so what happened to a pipeline can be read off it.

What GStreamer answers is not the node's choice.  `GstReplies` is one set of
answers to one `start_pipeline`: each of the three points at which it throws is
an answer, and `gst_parse_launch` may also report an error *and* hand over a
partial pipeline.
-/
import Mathlib.Data.Int.Notation
import Mathlib.Data.Nat.Notation

namespace JetsonPerception.Camera

/-- The parameters of the node, with their declared defaults. -/
structure Params where
  sensorId : ℤ := 0
  width : ℤ := 1920
  height : ℤ := 1080
  framerate : ℤ := 60
  flipMethod : ℤ := 0
  exposureTimeRange : String := ""
  gainRange : String := ""
  warmupFrames : ℤ := 30
  stallRestartS : ℤ := 5
  maxRebuilds : ℤ := 10
  convertThreads : ℤ := 0

/-- `build_pipeline_description`: the text handed to `gst_parse_launch`. -/
def buildPipelineDescription (P : Params) : String :=
  "nvarguscamerasrc sensor-id=" ++ toString P.sensorId ++
  (if P.exposureTimeRange.isEmpty then "" else
    " exposuretimerange=\"" ++ P.exposureTimeRange ++ "\"") ++
  (if P.gainRange.isEmpty then "" else " gainrange=\"" ++ P.gainRange ++ "\"") ++
  " ! video/x-raw(memory:NVMM),width=" ++ toString P.width ++
  ",height=" ++ toString P.height ++ ",framerate=" ++ toString P.framerate ++ "/1" ++
  " ! nvvidconv flip-method=" ++ toString P.flipMethod ++
  " ! video/x-raw,format=BGRx" ++
  " ! videoconvert n-threads=" ++ toString P.convertThreads ++
  " ! video/x-raw,format=BGR" ++
  " ! appsink name=sink sync=false max-buffers=2 drop=true"

/-- One request to GStreamer.  `none` stands for a null pointer. -/
inductive GstCall where
  | parseLaunch (description : String) (made : Option ℕ)
  | getByName (pipeline : ℕ) (sink : Option ℕ)
  | setPlaying (pipeline : ℕ)
  | setNull (pipeline : ℕ)
  | unrefSink (sink : ℕ)
  | unrefPipeline (pipeline : ℕ)
  | tryPullSample (sink : Option ℕ)
  | isEos (sink : Option ℕ)
  deriving DecidableEq

/-- `pipeline_` and `appsink_`.  An appsink carries the number of the pipeline it
was looked up in; `created` counts the pipelines made so far. -/
structure Handles where
  pipeline : Option ℕ := none
  appsink : Option ℕ := none
  created : ℕ := 0
  calls : List GstCall := []
  deriving DecidableEq

/-- Log a request. -/
def Handles.call (h : Handles) (c : GstCall) : Handles := { h with calls := h.calls ++ [c] }

@[simp] theorem Handles.call_pipeline (h : Handles) (c : GstCall) :
    (h.call c).pipeline = h.pipeline := rfl

@[simp] theorem Handles.call_appsink (h : Handles) (c : GstCall) :
    (h.call c).appsink = h.appsink := rfl

@[simp] theorem Handles.call_created (h : Handles) (c : GstCall) :
    (h.call c).created = h.created := rfl

/-- GStreamer's answers to one `start_pipeline`: whether `gst_parse_launch` returns
a pipeline, its `GError`, whether the appsink is found, and whether PLAYING is
accepted (anything but `GST_STATE_CHANGE_FAILURE`). -/
structure GstReplies where
  parsed : Bool := true
  error : Option String := none
  sinkFound : Bool := true
  playing : Bool := true
  deriving DecidableEq

/-- `pipeline_ = gst_parse_launch(description, &error)`. -/
def Handles.parseLaunch (h : Handles) (description : String) (r : GstReplies) : Handles :=
  if r.parsed then
    { h.call (.parseLaunch description (some h.created)) with
      pipeline := some h.created, created := h.created + 1 }
  else
    { h.call (.parseLaunch description none) with pipeline := none }

@[simp] theorem Handles.parseLaunch_appsink (h : Handles) (description : String)
    (r : GstReplies) : (h.parseLaunch description r).appsink = h.appsink := by
  rw [Handles.parseLaunch]
  split <;> rfl

/-- `appsink_ = gst_bin_get_by_name(GST_BIN(pipeline_), "sink")`. -/
def Handles.getByName (h : Handles) (id : ℕ) (r : GstReplies) : Handles :=
  let sink := if r.sinkFound then some id else none
  { h.call (.getByName id sink) with appsink := sink }

/-- `start_pipeline`: the handles it leaves behind, and what it throws.  The handles
are stored before each throw. -/
def startPipeline (P : Params) (r : GstReplies) (h : Handles) : Handles × Except String Unit :=
  let h := h.parseLaunch (buildPipelineDescription P) r
  match h.pipeline, r.error with
  | none, error => (h, .error ("failed to build pipeline: " ++ error.getD "unknown error"))
  | some _, some message => (h, .error ("failed to build pipeline: " ++ message))
  | some id, none =>
      let h := h.getByName id r
      if h.appsink.isNone then (h, .error "appsink element not found in pipeline")
      else
        let h := h.call (.setPlaying id)
        if r.playing then (h, .ok ())
        else (h, .error "failed to set pipeline PLAYING -- is /tmp/argus_socket mounted?")

/-- `start_pipeline` returned. -/
def started (P : Params) (r : GstReplies) (h : Handles) : Bool :=
  (startPipeline P r h).2.isOk

/-- `start_pipeline` returns iff all four answers are good ones; the handles it
starts from do not matter. -/
theorem started_iff {P : Params} {r : GstReplies} {h : Handles} :
    started P r h = true ↔
      r.parsed = true ∧ r.error = none ∧ r.sinkFound = true ∧ r.playing = true := by
  rcases r with ⟨parsed, error, sinkFound, playing⟩
  cases parsed <;> cases error <;> cases sinkFound <;> cases playing <;>
    simp [started, startPipeline, Handles.parseLaunch, Handles.getByName, Handles.call,
      Except.isOk, Except.toBool]

/-- `teardown_pipeline`. -/
def teardownPipeline (h : Handles) : Handles :=
  let h := match h.pipeline with
    | some id => h.call (.setNull id)
    | none => h
  let h := match h.appsink with
    | some id => { h.call (.unrefSink id) with appsink := none }
    | none => h
  match h.pipeline with
    | some id => { h.call (.unrefPipeline id) with pipeline := none }
    | none => h

theorem teardownPipeline_null (h : Handles) :
    (teardownPipeline h).pipeline = none ∧ (teardownPipeline h).appsink = none := by
  rcases h with ⟨_ | p, _ | a, created, calls⟩ <;> exact ⟨rfl, rfl⟩

/-- A second `teardown_pipeline` asks nothing of GStreamer. -/
theorem teardownPipeline_idem (h : Handles) :
    teardownPipeline (teardownPipeline h) = teardownPipeline h := by
  rcases h with ⟨_ | p, _ | a, created, calls⟩ <;> rfl

end JetsonPerception.Camera
