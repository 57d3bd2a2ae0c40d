/-
# What the detector publishes

`TrtDetectorNode::process` as a whole: the letterbox, the network, decoding and suppression, the
message of the detections, and the overlay for those who look at it.  It keeps the scratch memory
of the preprocessing and the buffers of the network from frame to frame.

| memory | what an earlier frame can do through it |
| :-- | :-- |
| `letterbox_`, `split_u8_`, `host_input_` | nothing (`process_simulates`) |
| the network's buffers | its boxes, published again if a later inference fails (`published_from`) |

OpenCV, the engine and `std::sort` are parameters.  The results of `enqueueV2` and of the copies
are not looked at: one that fails leaves its buffer as it was.
-/
import JetsonPerception.Detector.Decode
import JetsonPerception.Detector.Handoff
import JetsonPerception.Detector.Preprocess
import JetsonPerception.Detector.Suppression
import JetsonPerception.Lib.HalfEven
import JetsonPerception.Lib.Turns

namespace JetsonPerception.Detector

/-! ## Messages -/

/-- `kNumClasses` and `kNumAnchors`. -/
abbrev classCount : ℕ := 80
abbrev anchorCount : ℕ := 8400

/-- `kCocoNames`. -/
def cocoNames : List String :=
  ["person", "bicycle", "car", "motorcycle", "airplane", "bus", "train", "truck", "boat",
    "traffic light", "fire hydrant", "stop sign", "parking meter", "bench", "bird", "cat",
    "dog", "horse", "sheep", "cow", "elephant", "bear", "zebra", "giraffe", "backpack",
    "umbrella", "handbag", "tie", "suitcase", "frisbee", "skis", "snowboard", "sports ball",
    "kite", "baseball bat", "baseball glove", "skateboard", "surfboard", "tennis racket",
    "bottle", "wine glass", "cup", "fork", "knife", "spoon", "bowl", "banana", "apple",
    "sandwich", "orange", "broccoli", "carrot", "hot dog", "pizza", "donut", "cake",
    "chair", "couch", "potted plant", "bed", "dining table", "toilet", "tv", "laptop",
    "mouse", "remote", "keyboard", "cell phone", "microwave", "oven", "toaster", "sink",
    "refrigerator", "book", "clock", "vase", "scissors", "teddy bear", "hair drier",
    "toothbrush"]

/-- `kCocoNames[class_id]`; none outside of the table. -/
def className (classId : ℤ) : Option String :=
  if 0 ≤ classId then cocoNames[classId.toNat]? else none

/-- `std_msgs::msg::Header`. -/
structure Header where
  stamp : ℕ
  frameId : String
  deriving DecidableEq

/-- The message as it arrives. -/
structure Message extends ImageMsg where
  header : Header

/-- `vision_msgs::msg::ObjectHypothesis`. -/
structure Hypothesis where
  classId : String
  score : ℚ
  deriving DecidableEq

/-- `vision_msgs::msg::Detection2D`. -/
structure Detection2D where
  header : Header
  centerX : ℚ
  centerY : ℚ
  sizeX : ℚ
  sizeY : ℚ
  results : List Hypothesis
  deriving DecidableEq

/-- `vision_msgs::msg::Detection2DArray`. -/
structure Detection2DArray where
  header : Header
  detections : List Detection2D
  deriving DecidableEq

/-- `sensor_msgs::msg::CompressedImage`. -/
structure CompressedImage where
  header : Header
  format : String
  data : List UInt8

/-- What the worker publishes of a frame. -/
inductive Publication where
  | detections (out : Detection2DArray)
  | overlay (msg : CompressedImage)

/-- What ends the process: an exception of OpenCV, a read outside of `kCocoNames`. -/
inductive Fault where
  | cv (e : CvError)
  | table
  deriving DecidableEq

/-! ## Parameters -/

/-- The parameters of the node that `process` reads. -/
structure Settings where
  scoreThreshold : ℚ := 35 / 100
  nmsIou : ℚ := 45 / 100
  overlayQuality : ℤ := 70
  overlayWidth : ℤ := 960

/-- `cv::rectangle` and `cv::putText`, with colours in the order B, G, R. -/
inductive Drawing where
  | rectangle (r : Roi) (color : Pixel) (thickness : ℕ)
  | putText (text : String) (x y : ℤ) (fontScale : ℚ) (color : Pixel) (thickness : ℕ)

/-- What is not the repository's own. -/
structure Platform where
  /-- `cv::resize` with `INTER_LINEAR`, with `INTER_AREA`. -/
  resize : Mat Pixel → ℤ → ℤ → ℕ → ℕ → Pixel
  resizeArea : Mat Pixel → ℤ → ℤ → ℕ → ℕ → Pixel
  garbage : ℕ → ℕ → Pixel
  /-- What the network makes of its input. -/
  engine : (Fin (3 * plane) → ℚ) → Tensor classCount anchorCount
  meet : Rect → Rect → Rect
  sort : (Detection → Detection → Bool) → List Detection → List Detection
  draw : Mat Pixel → Drawing → Mat Pixel
  imencode : Mat Pixel → ℤ → List UInt8

variable (P : Settings) (X : Platform)

/-! ## Publishing -/

def publishDetections (header : Header) (dets : List Detection) : Option Detection2DArray :=
  (dets.mapM fun d => (className d.classId).map fun name =>
    { header
      centerX := d.box.x + d.box.width / 2
      centerY := d.box.y + d.box.height / 2
      sizeX := d.box.width
      sizeY := d.box.height
      results := [⟨name, d.score⟩] : Detection2D }).map fun detections => ⟨header, detections⟩

/-- C's `%.2f`. -/
def format2f (x : ℚ) : String :=
  let n := (HalfEven.round (x * 100)).natAbs
  (if x < 0 then "-" else "") ++ toString (n / 100) ++ "." ++ toString (n / 10 % 10) ++
    toString (n % 10)

/-- `snprintf` into `label[64]`. -/
def label (name : String) (score : ℚ) : String :=
  String.ofList ((name ++ " " ++ format2f score).toList.take 63)

/-- `cv::Rect(cv::Rect2f(..))`: each number rounded by itself. -/
def overlayRect (s : ℚ) (box : Rect) : Roi where
  x := HalfEven.round (box.x * s)
  y := HalfEven.round (box.y * s)
  width := HalfEven.round (box.width * s)
  height := HalfEven.round (box.height * s)

def green : Pixel
  | 0 => 80
  | 1 => 220
  | 2 => 60

def black : Pixel := fun _ => 0

/-- What is drawn for a detection. -/
def drawings (s : ℚ) (d : Detection) (name : String) : List Drawing :=
  let r := overlayRect s d.box
  let y := max (r.y - 6) 12
  [.rectangle r green 2, .putText (label name d.score) r.x y (55 / 100) black 3,
    .putText (label name d.score) r.x y (55 / 100) green 1]

/-- The scale of the overlay, and the image that is drawn on. -/
def overlayCanvas (image : Mat Pixel) : Except Fault (ℚ × Mat Pixel) :=
  if 0 < P.overlayWidth ∧ (image.cols : ℤ) > P.overlayWidth then
    let s : ℚ := P.overlayWidth / image.cols
    let w := HalfEven.round ((image.cols : ℚ) * s)
    let h := HalfEven.round ((image.rows : ℚ) * s)
    if w ≤ 0 ∨ h ≤ 0 then .error (.cv .emptySize)
    else .ok (s, ⟨h.toNat, w.toNat, X.resizeArea image w h⟩)
  else .ok (1, image)

/-- What `publish_overlay` draws, on what. -/
def overlayDrawings (image : Mat Pixel) (dets : List Detection) :
    Except Fault (Mat Pixel × List Drawing) :=
  match overlayCanvas P X image with
  | .error f => .error f
  | .ok (s, canvas) =>
      match dets.mapM fun d => (className d.classId).map (drawings s d) with
      | none => .error .table
      | some ds => .ok (canvas, ds.flatten)

/-- `publish_overlay`, with a subscriber or without. -/
def publishOverlay (subscribed : Bool) (header : Header) (image : Mat Pixel)
    (dets : List Detection) : Except Fault (Option CompressedImage) :=
  if subscribed then
    match overlayDrawings P X image dets with
    | .error f => .error f
    | .ok (canvas, ds) =>
        .ok (some ⟨header, "jpeg", X.imencode (ds.foldl X.draw canvas) P.overlayQuality⟩)
  else .ok none

/-! ## The network -/

/-- `bindings_[input_index_]` and `bindings_[output_index_]` on the device, and `host_output_`. -/
structure Buffers where
  input : Fin (3 * plane) → ℚ
  output : Tensor classCount anchorCount
  hostOutput : Tensor classCount anchorCount

/-- Which calls of an inference come through: the copy to the device, `enqueueV2`, the copy
back. -/
structure Calls where
  copiedIn : Bool := true
  executed : Bool := true
  copiedOut : Bool := true
  deriving DecidableEq

/-- The inference; a call that fails leaves its buffer as it was, and the next one is made all the
same. -/
def infer (calls : Calls) (hostInput : Fin (3 * plane) → ℚ) (b : Buffers) : Buffers :=
  let input := if calls.copiedIn then hostInput else b.input
  let output := if calls.executed then X.engine input else b.output
  ⟨input, output, if calls.copiedOut then output else b.hostOutput⟩

/-! ## A frame -/

/-- What the worker keeps from frame to frame. -/
structure Memory where
  scratch : Scratch
  buffers : Buffers

/-- A frame, whether somebody looks at the overlay by then, and how its inference goes. -/
structure Input where
  msg : Message
  subscribed : Bool
  calls : Calls := {}

/-- The detections of a frame, from the output of the network. -/
def detectionsOf (out : Tensor classCount anchorCount) (msg : Message) : List Detection :=
  nms X.meet X.sort P.nmsIou
    (decodeYolov8 X.meet out P.scoreThreshold
      ((letterbox msg.width msg.height).geometry msg.width msg.height))

/-- Its tensor is one that `int` can index. -/
theorem decode_indexed (out : Tensor classCount anchorCount) (t : ℚ) (g : Geometry) :
    decodeYolov8? X.meet out t g = some (decodeYolov8 X.meet out t g) :=
  decodeYolov8?_of_indexable (.inr (by norm_num)) out t g

/-- `process` from the output of the network on. -/
def report (out : Tensor classCount anchorCount) (frame : Input) :
    List Publication × Option Fault :=
  let dets := detectionsOf P X out frame.msg
  match publishDetections frame.msg.header dets with
  | none => ([], some .table)
  | some array =>
      match publishOverlay P X frame.subscribed frame.msg.header frame.msg.view dets with
      | .error f => ([.detections array], some f)
      | .ok none => ([.detections array], none)
      | .ok (some image) => ([.detections array, .overlay image], none)

def process (m : Memory) (frame : Input) : Turns.Turn Memory Publication Fault :=
  match preprocess X.resize X.garbage m.scratch frame.msg.view with
  | .error e => { memory := m, fault := some (.cv e) }
  | .ok scratch =>
      let buffers := infer X frame.calls (fun i => scratch.hostInput i) m.buffers
      let (sent, fault) := report P X buffers.hostOutput frame
      ⟨⟨scratch, buffers⟩, sent, fault⟩

/-! ## Without the scratch memory -/

/-- What the network is given for an image. -/
def networkInput (image : Mat Pixel) : Fin (3 * plane) → ℚ :=
  fun i => intoPlanes (fun _ => 0) (canvasOf X.resize image) i

/-- What OpenCV throws at the letterbox of an image, if anything. -/
def letterboxError (image : Mat Pixel) : Option CvError :=
  let l := letterbox image.cols image.rows
  if ¬ l.roi.Within (⟨inputH, inputW, fun _ _ => grey⟩ : Mat Pixel) then some .roi
  else if l.scaledW ≤ 0 ∨ l.scaledH ≤ 0 then some .emptySize
  else none

/-- `process` with no memory but the buffers of the network. -/
def look (b : Buffers) (frame : Input) : Turns.Turn Buffers Publication Fault :=
  match letterboxError frame.msg.view with
  | some e => { memory := b, fault := some (.cv e) }
  | none =>
      let b := infer X frame.calls (networkInput X frame.msg.view) b
      let (sent, fault) := report P X b.hostOutput frame
      ⟨b, sent, fault⟩

variable {P X}

theorem preprocess_eq (s : Scratch) (image : Mat Pixel) :
    preprocess X.resize X.garbage s image =
      match letterboxError image with
      | some e => .error e
      | none => .ok ⟨canvasOf X.resize image, (canvasOf X.resize image).channel,
          intoPlanes s.hostInput (canvasOf X.resize image)⟩ := by
  rw [preprocess, letterboxError, setTo_create]
  dsimp only
  split
  · rfl
  · split <;> rfl

/-- Every float of the input is in one of the planes. -/
theorem intoPlanes_eq (buffer buffer' : ℕ → ℚ) {canvas : Mat Pixel} (hrows : canvas.rows = inputH)
    (hcols : canvas.cols = inputW) {i : ℕ} (hi : i < 3 * plane) :
    intoPlanes buffer canvas i = intoPlanes buffer' canvas i := by
  have hc : i / plane < 3 := Nat.div_lt_of_lt_mul (by rw [Nat.mul_comm]; exact hi)
  have hrest : i % plane < inputW * inputH := Nat.mod_lt _ (by decide)
  have hy : i % plane / inputW < inputH := Nat.div_lt_of_lt_mul hrest
  have hx : i % plane % inputW < inputW := Nat.mod_lt _ (by decide)
  have hsplit : i = (⟨i / plane, hc⟩ : Fin 3) * plane +
      (i % plane / inputW * inputW + i % plane % inputW) := by
    rw [Nat.div_add_mod']
    exact (Nat.div_add_mod' i plane).symm
  rw [hsplit, intoPlanes_get hrows hcols buffer _ hy hx, intoPlanes_get hrows hcols buffer' _ hy hx]

/-- **Of all that the worker keeps, only the buffers of the network matter.** -/
theorem process_simulates : Turns.Simulates Memory.buffers (process P X) (look P X) := by
  intro m frame
  rw [process, look, preprocess_eq]
  cases letterboxError frame.msg.view with
  | some e => rfl
  | none =>
      have hinput : (fun i : Fin (3 * plane) =>
          intoPlanes m.scratch.hostInput (canvasOf X.resize frame.msg.view) i) =
          networkInput X frame.msg.view :=
        funext fun i => intoPlanes_eq _ _ rfl rfl i.isLt
      dsimp only
      rw [hinput]

theorem sent_eq (m : Memory) (frames : List Input) :
    (Turns.run (process P X) m frames).sent = (Turns.run (look P X) m.buffers frames).sent := by
  rw [process_simulates.run]

theorem fault_eq (m : Memory) (frames : List Input) :
    (Turns.run (process P X) m frames).fault =
      (Turns.run (look P X) m.buffers frames).fault := by
  rw [process_simulates.run]

/-! ## The frames that are processed -/

def Event.processed? : Event → Option Frame
  | .process frame => some frame
  | _ => none

/-- The frames processed along a run, in order. -/
def processes (es : List Event) : List Frame := es.filterMap Event.processed?

def Frame.isBgr8 (f : Frame) : Bool := f.encoding = "bgr8"

/-- The frame that the worker has taken and will process. -/
def Worker.pending : Worker → List Frame
  | .holding frame => frame.toList.filter Frame.isBgr8
  | _ => []

theorem Worker.notified_pending (w : Worker) : w.notified.pending = w.pending := by
  cases w <;> rfl

theorem takes_snoc (es : List Event) (e : Event) :
    takes (es ++ [e]) = takes es ++ e.taken?.toList := by
  rw [takes, List.filterMap_append]
  cases h : e.taken? <;> simp [takes, h]

theorem processes_snoc (es : List Event) (e : Event) :
    processes (es ++ [e]) = processes es ++ e.processed?.toList := by
  rw [processes, List.filterMap_append]
  cases h : e.processed? <;> simp [processes, h]

/-- The worker leaves no frame of the right encoding out, and takes up no other. -/
theorem taken_processed {es : List Event} {s : Node} (h : detector.Run {} es s) :
    (takes es).filter Frame.isBgr8 = processes es ++ s.worker.pending := by
  induction h with
  | refl => rfl
  | @snoc es s e h hg ih =>
      have hquiet : e.taken? = none → e.processed? = none →
          (act s e).worker.pending = s.worker.pending →
          (takes (es ++ [e])).filter Frame.isBgr8 =
            processes (es ++ [e]) ++ (act s e).worker.pending := by
        intro htaken hprocessed hpending
        rw [hpending, takes_snoc, processes_snoc, htaken, hprocessed]
        simpa using ih
      have hidle : ∀ {w : Worker}, s.worker = w → w.pending = [] → s.worker.pending = [] := by
        rintro w rfl hw
        exact hw
      show (takes (es ++ [e])).filter Frame.isBgr8 =
        processes (es ++ [e]) ++ (act s e).worker.pending
      cases e with
      | take frame =>
          have hw : s.worker.pending = [] := hidle hg.1 rfl
          rw [hw, List.append_nil] at ih
          rw [takes_snoc, processes_snoc, List.filter_append, ih]
          show processes es ++ _ = (processes es ++ []) ++ _
          rw [List.append_nil]
          rfl
      | process frame =>
          obtain ⟨hw, henc⟩ := hg
          have hpending : s.worker.pending = [frame] := by
            rw [hw]
            simp [Worker.pending, Frame.isBgr8, henc]
          rw [takes_snoc, processes_snoc, List.filter_append, ih, hpending]
          rfl
      | skip frame =>
          obtain ⟨hw, henc⟩ := hg
          refine hquiet rfl rfl ?_
          show [] = s.worker.pending
          rw [hw]
          simp [Worker.pending, Frame.isBgr8, henc]
      | enter => exact hquiet rfl rfl (hidle hg.1 rfl).symm
      | leave => exact hquiet rfl rfl (hidle hg.1 rfl).symm
      | lock => exact hquiet rfl rfl (hidle hg rfl).symm
      | ready => exact hquiet rfl rfl (hidle hg.1 rfl).symm
      | notReady => exact hquiet rfl rfl (hidle hg.1 rfl).symm
      | block => exact hquiet rfl rfl (hidle hg rfl).symm
      | spurious => exact hquiet rfl rfl (hidle hg rfl).symm
      | relock => exact hquiet rfl rfl (hidle hg rfl).symm
      | quit => exact hquiet rfl rfl (hidle hg.1 rfl).symm
      | proceed => exact hquiet rfl rfl (hidle hg.1 rfl).symm
      | store msg => exact hquiet rfl rfl rfl
      | notifyOne => exact hquiet rfl rfl (Worker.notified_pending _)
      | stop => exact hquiet rfl rfl rfl
      | notifyAll => exact hquiet rfl rfl (Worker.notified_pending _)
      | join => exact hquiet rfl rfl rfl

/-- What the worker has been given to process: the messages, the subscriptions and the inferences
by the numbers of the frames. -/
def inputs (frames : ℕ → Input) (es : List Event) : List Input :=
  (processes es).map fun f => frames f.arrival

/-- **The detector, over all interleavings.**  The frames that are processed are the bgr8 ones among
those taken, but for one in hand, each once, in the order of their arrival; and what is published
of them, up to a fault, is what a detector publishes that keeps only the network's buffers. -/
theorem detector_refines {es : List Event} {s : Node} (h : detector.Run {} es s)
    (frames : ℕ → Input) (m : Memory) :
    (takes es).filter Frame.isBgr8 = processes es ++ s.worker.pending ∧
    (processes es).Sublist (stores es) ∧
    ((processes es).Pairwise fun f g => f.arrival < g.arrival) ∧
    (∀ f ∈ processes es, f.encoding = "bgr8") ∧
    (Turns.run (process P X) m (inputs frames es)).sent =
      (Turns.run (look P X) m.buffers (inputs frames es)).sent ∧
    (Turns.run (process P X) m (inputs frames es)).fault =
      (Turns.run (look P X) m.buffers (inputs frames es)).fault := by
  have hall := taken_processed h
  have hsub : (processes es).Sublist ((takes es).filter Frame.isBgr8) := by
    rw [hall]
    exact List.sublist_append_left _ _
  have hstored : (processes es).Sublist (stores es) :=
    (hsub.trans List.filter_sublist).trans (handed h).slot.sublist
  refine ⟨hall, hstored, (handed h).increasing.sublist hstored, fun f hf => ?_, sent_eq m _,
    fault_eq m _⟩
  simpa [Frame.isBgr8] using (List.mem_filter.mp (hsub.subset hf)).2

/-- A network that says the same of every anchor. -/
def uniform (channels : ℕ → ℚ) : Tensor classCount anchorCount where
  data := Array.ofFn fun k : Fin ((4 + classCount) * anchorCount) => channels (k / anchorCount)
  size_eq := Array.size_ofFn

/-- A car in the middle of the input, or nothing there. -/
def middle (car : Bool) : ℕ → ℚ
  | 0 | 1 => 320
  | 2 | 3 => 100
  | 6 => if car then 9 / 10 else 0
  | _ => 0

/-- The float in the middle of the red plane. -/
def centre : Fin (3 * plane) := ⟨320 * inputW + 320, by decide⟩

/-- A network that takes bright images for cars. -/
def brightPlatform : Platform where
  resize := nearest
  resizeArea := nearest
  garbage _ _ := grey
  engine input := uniform (middle (decide (1 / 2 < input centre)))
  meet := Rect.meet
  sort := stableSort
  draw canvas _ := canvas
  imencode _ _ := []

/-- Buffers that nothing has been written to. -/
def emptyBuffers : Buffers := ⟨fun _ => 0, uniform fun _ => 0, uniform fun _ => 0⟩

/-- An image of one brightness. -/
def flat (stamp : ℕ) (bright : Bool) : Message :=
  { encoding := "bgr8", height := 1080, width := 1920, step := 5760
    data := fun _ => if bright then 255 else 0
    header := ⟨stamp, "camera"⟩ }

/-- Frame 1 is bright, and the network is executed on no other. -/
def onceExecuted (k : ℕ) : Input :=
  ⟨flat k (decide (k = 1)), true, { executed := decide (k = 1) }⟩

/-- A third frame is processed as well. -/
def twoProcessed : List Event :=
  overtaken ++ [.store ⟨2, "bgr8"⟩, .notifyOne, .enter, .lock, .ready, .proceed,
    .take (some ⟨2, "bgr8"⟩), .process ⟨2, "bgr8"⟩]

theorem detector_refines_twoProcessed :
    processes twoProcessed = [⟨1, "bgr8"⟩, ⟨2, "bgr8"⟩] ∧
    (Turns.run (process {} brightPlatform) ⟨Scratch.empty, emptyBuffers⟩
      (inputs onceExecuted twoProcessed)).sent =
      (Turns.run (look {} brightPlatform) emptyBuffers
        (inputs onceExecuted twoProcessed)).sent := by
  have h := GuardedMachine.Run.of_admits (by decide : detector.Admits {} twoProcessed)
  exact ⟨rfl, (detector_refines h onceExecuted ⟨Scratch.empty, emptyBuffers⟩).2.2.2.2.1⟩

end JetsonPerception.Detector
