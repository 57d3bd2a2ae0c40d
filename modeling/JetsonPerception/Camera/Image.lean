/-
# A frame on its way from the camera to the detector

`publish` copies the bytes of a sample into a message and describes them by the node's parameters:
`height` rows of `3 * width` bytes.  `process` looks at the bytes as they are described.  But the
bytes are laid out by GStreamer, in rows with a stride and of a frame that has gone through
`nvvidconv`, and `publish` asks for neither.

So the detector sees the frame that was captured exactly when the description happens to fit: the
frame has that width and height, which it has not when `flip-method` turns it on its side, and
there is nothing between its rows, which there is when `3 * width` is no multiple of four.
-/
import JetsonPerception.Camera.Pipeline
import JetsonPerception.Detector.Preprocess

namespace JetsonPerception.Camera

open Detector (Mat Pixel ImageMsg)

/-! ## The message -/

/-- A sample as `publish` finds it: the bytes of its buffer, if it has one and it can be mapped. -/
abbrev Sample := Option (List UInt8)

/-- `sensor_msgs::msg::Image`. -/
structure Image where
  stamp : ℤ
  frameId : String
  height : ℕ
  width : ℕ
  encoding : String
  isBigendian : ℕ
  step : ℕ
  data : List UInt8
  deriving DecidableEq

/-- `static_cast<uint32_t>`. -/
def uint32 (n : ℤ) : ℕ := (n % 2 ^ 32).toNat

/-- `ArgusCameraNode::publish`, as far as the image goes: the camera info has the same header. -/
def publish (P : Params) (frameId : String) (now : ℤ) (sample : Sample) : Option Image :=
  sample.map fun bytes =>
    { stamp := now
      frameId
      height := uint32 P.height
      width := uint32 P.width
      encoding := "bgr8"
      isBigendian := 0
      step := uint32 (P.width * 3)
      data := bytes }

/-- The message in the detector's hands; what is behind the end of its data is not known. -/
def Image.received (msg : Image) (beyond : ℕ → UInt8) : ImageMsg where
  encoding := msg.encoding
  height := msg.height
  width := msg.width
  step := msg.step
  data i := msg.data.getD i (beyond i)

/-! ## The bytes -/

/-- The bytes of a frame, row by row, each row at a multiple of the stride. -/
structure Layout (rows cols stride : ℕ) (pixel : ℕ → ℕ → Pixel) (bytes : List UInt8) : Prop where
  row : 3 * cols ≤ stride
  length : bytes.length = stride * rows
  get : ∀ y < rows, ∀ x < cols, ∀ c : Fin 3, bytes[y * stride + 3 * x + c]? = some (pixel y x c)

/-- The matrix shows the frame. -/
def Shows (m : Mat Pixel) (rows cols : ℕ) (pixel : ℕ → ℕ → Pixel) : Prop :=
  m.rows = rows ∧ m.cols = cols ∧ ∀ y < rows, ∀ x < cols, m.get y x = pixel y x

/-- What the detector sees of a sample is the frame in it, whatever that shows and whatever is
behind it in memory. -/
def SeesFrames (P : Params) (rows cols stride : ℕ) : Prop :=
  ∀ pixel bytes beyond frameId now, Layout rows cols stride pixel bytes →
    ∃ msg, publish P frameId now (some bytes) = some msg ∧
      Shows (msg.received beyond).view rows cols pixel

variable {P : Params} {rows cols stride : ℕ}

theorem uint32_of_lt {n : ℤ} (h0 : 0 ≤ n) (hlt : n < 2 ^ 32) : (uint32 n : ℤ) = n := by
  rw [uint32, Int.emod_eq_of_lt h0 hlt, Int.toNat_of_nonneg h0]

/-- A byte of a row is one of the frame's bytes. -/
theorem index_lt {y x : ℕ} (hrow : 3 * cols ≤ stride) (hy : y < rows) (hx : x < cols) (c : Fin 3) :
    y * stride + 3 * x + c < stride * rows := by
  have hc := c.isLt
  calc y * stride + 3 * x + c < y * stride + stride := by omega
    _ = stride * (y + 1) := by rw [Nat.mul_comm, Nat.mul_succ]
    _ ≤ stride * rows := Nat.mul_le_mul_left _ hy

/-- Bytes of which one row begins with 1 and all the others are 0. -/
def marked (rows stride : ℕ) : List UInt8 :=
  (List.range (stride * rows)).map fun i => if i = stride then 1 else 0

theorem marked_layout (hrow : 3 * cols ≤ stride) : Layout rows cols stride
    (fun y x c => if y * stride + 3 * x + c = stride then 1 else 0) (marked rows stride) where
  row := hrow
  length := by rw [marked, List.length_map, List.length_range]
  get y hy x hx c := by
    rw [marked, List.getElem?_map, List.getElem?_range (index_lt hrow hy hx c)]
    rfl

/-- **The detector sees the frames of the camera** exactly when they have the width and the height
of the parameters and there is nothing between their rows. -/
theorem sees_frames_iff (hwidth : 0 ≤ P.width ∧ 3 * P.width < 2 ^ 31)
    (hheight : 0 ≤ P.height ∧ P.height < 2 ^ 31) (hcols : 0 < cols) (hrow : 3 * cols ≤ stride) :
    SeesFrames P rows cols stride ↔
      (rows : ℤ) = P.height ∧ (cols : ℤ) = P.width ∧ (stride = 3 * cols ∨ rows ≤ 1) := by
  have hw : (uint32 P.width : ℤ) = P.width := uint32_of_lt hwidth.1 (by omega)
  have hh : (uint32 P.height : ℤ) = P.height := uint32_of_lt hheight.1 (by omega)
  have hstep : (uint32 (P.width * 3) : ℤ) = P.width * 3 := uint32_of_lt (by omega) (by omega)
  constructor
  · intro hsees
    obtain ⟨msg, hmsg, hrows, hcols', hget⟩ :=
      hsees _ (marked rows stride) (fun _ => 0) "" 0 (marked_layout hrow)
    cases hmsg
    have hrows : uint32 P.height = rows := hrows
    have hcols' : uint32 P.width = cols := hcols'
    refine ⟨by omega, by omega, ?_⟩
    by_contra hno
    obtain ⟨hne, htwo⟩ := not_or.mp hno
    -- the second row begins elsewhere for the detector
    have hseen := congrFun (hget 1 (by omega) 0 hcols) 0
    have hseen : (marked rows stride).getD (1 * uint32 (P.width * 3) + 3 * 0 + 0) 0 = 1 := by
      simpa [Image.received, ImageMsg.view] using hseen
    have hsmall : 1 * uint32 (P.width * 3) + 3 * 0 + 0 < stride * rows := by
      have hmany : stride * 2 ≤ stride * rows := Nat.mul_le_mul_left _ (by omega)
      omega
    rw [marked, List.getD_eq_getElem?_getD, List.getElem?_map, List.getElem?_range hsmall] at hseen
    have hsame : uint32 (P.width * 3) = stride := by simpa using hseen
    omega
  · rintro ⟨hrows, hcols', hstride⟩ pixel bytes beyond frameId now h
    refine ⟨_, rfl, ?_, ?_, fun y hy x hx => ?_⟩
    · show uint32 P.height = rows
      omega
    · show uint32 P.width = cols
      omega
    · funext c
      have hoffset : y * uint32 (P.width * 3) = y * stride := by
        rcases hstride with hstride | hone
        · have hsame : uint32 (P.width * 3) = stride := by omega
          rw [hsame]
        · obtain rfl : y = 0 := by omega
          rw [Nat.zero_mul, Nat.zero_mul]
      show bytes.getD (y * uint32 (P.width * 3) + 3 * x + c) _ = pixel y x c
      rw [hoffset, List.getD_eq_getElem?_getD, h.get y hy x hx c]
      rfl

/-- GStreamer's stride for three bytes a pixel: rows begin at multiples of four. -/
def defaultStride (cols : ℕ) : ℕ := (3 * cols + 3) / 4 * 4

theorem defaultStride_iff (cols : ℕ) : defaultStride cols = 3 * cols ↔ cols % 4 = 0 := by
  rw [defaultStride]
  omega

theorem sees_frames_iff_1080p : SeesFrames {} 1080 1920 (defaultStride 1920) :=
  (sees_frames_iff (by decide) (by decide) (by decide) (by decide)).mpr
    ⟨rfl, rfl, .inl ((defaultStride_iff 1920).mpr rfl)⟩

end JetsonPerception.Camera
