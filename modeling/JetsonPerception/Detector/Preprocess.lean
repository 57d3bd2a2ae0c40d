/-
# From the message to the input of the network

The preprocessing of `TrtDetectorNode::process`: the image is resized into the middle of a grey
640 × 640 canvas, the canvas is split into its channels, and each is scaled into its plane of the
pinned host buffer, in reverse order.  Canvas, channels and buffer are scratch memory that is kept
from frame to frame.

Nothing of an earlier frame survives in any of them (`network_input`): the grey covers the canvas,
the resize its region, the split the channels, and the three planes the buffer.

What can go wrong is the region.  An image more than 640 times as wide as high, or as high as wide,
is resized to no pixels on the shorter axis; nothing looks at that before OpenCV does, and what
OpenCV throws ends the process (`letterbox_usable_iff`).

`cv::resize` is a parameter, an arbitrary function of the image and the size that gives each pixel
of the target.  Message sizes are those of images that fit in memory, within the `int`s of
`cv::Mat`.
-/
import JetsonPerception.Detector.Letterbox
import Mathlib.Tactic.FinCases

namespace JetsonPerception.Detector

/-! ## Matrices -/

/-- A `cv::Mat`; outside of its rows and columns `get` means nothing. -/
structure Mat (α : Type) where
  rows : ℕ := 0
  cols : ℕ := 0
  get : ℕ → ℕ → α

/-- The three channels of a pixel, in the order B, G, R. -/
abbrev Pixel := Fin 3 → UInt8

/-- `cv::Mat::create`: a matrix of that size is kept as it is, otherwise memory is allocated, with
whatever it holds. -/
def Mat.create {α : Type} (m : Mat α) (rows cols : ℕ) (garbage : ℕ → ℕ → α) : Mat α :=
  if m.rows = rows ∧ m.cols = cols then m else ⟨rows, cols, garbage⟩

/-- `cv::Mat::setTo`. -/
def Mat.setTo {α : Type} (m : Mat α) (v : α) : Mat α := { m with get := fun _ _ => v }

/-- `cv::Rect`. -/
structure Roi where
  x : ℤ
  y : ℤ
  width : ℤ
  height : ℤ

/-- The pixel lies in the rectangle. -/
def Roi.Contains (r : Roi) (y x : ℕ) : Prop :=
  r.x ≤ x ∧ x < r.x + r.width ∧ r.y ≤ y ∧ y < r.y + r.height

instance (r : Roi) (y x : ℕ) : Decidable (r.Contains y x) :=
  inferInstanceAs (Decidable (_ ∧ _ ∧ _ ∧ _))

/-- What OpenCV asserts of a rectangle of a matrix. -/
def Roi.Within {α : Type} (r : Roi) (m : Mat α) : Prop :=
  0 ≤ r.x ∧ 0 ≤ r.width ∧ r.x + r.width ≤ m.cols ∧
    0 ≤ r.y ∧ 0 ≤ r.height ∧ r.y + r.height ≤ m.rows

instance {α : Type} (r : Roi) (m : Mat α) : Decidable (r.Within m) :=
  inferInstanceAs (Decidable (_ ∧ _ ∧ _ ∧ _ ∧ _ ∧ _))

/-- Write the rectangle of a matrix. -/
def Mat.paste {α : Type} (m : Mat α) (r : Roi) (target : ℕ → ℕ → α) : Mat α where
  rows := m.rows
  cols := m.cols
  get y x := if r.Contains y x then target (y - r.y).toNat (x - r.x).toNat else m.get y x

/-- `cv::split`, one channel. -/
def Mat.channel (m : Mat Pixel) (c : Fin 3) : Mat UInt8 := ⟨m.rows, m.cols, fun y x => m.get y x c⟩

/-! ## The host buffer -/

/-- `plane`, the floats of one plane. -/
def plane : ℕ := inputW * inputH

/-- A `cv::Mat` header of 640 × 640 floats over the host buffer: where it starts. -/
def planeStart : Fin 3 → ℕ
  | 0 => 2 * plane
  | 1 => 1 * plane
  | 2 => 0 * plane

/-- Write a matrix row by row from `start` on. -/
def writeRows (buffer : ℕ → ℚ) (start : ℕ) (m : Mat ℚ) : ℕ → ℚ := fun i =>
  if start ≤ i ∧ i < start + m.rows * m.cols then
    m.get ((i - start) / m.cols) ((i - start) % m.cols)
  else buffer i

/-- `cv::Mat::convertTo` of a channel into a plane.  A source of another size would have the
header allocate memory of its own, and the buffer would not be written. -/
def convertTo (buffer : ℕ → ℚ) (m : Mat UInt8) (start : ℕ) : ℕ → ℚ :=
  if m.rows = inputH ∧ m.cols = inputW then
    writeRows buffer start ⟨m.rows, m.cols, fun y x => ((m.get y x).toNat : ℚ) * (1 / 255)⟩
  else buffer

/-! ## Preprocessing -/

/-- `letterbox_`, `split_u8_` and the floats behind `host_input_`. -/
structure Scratch where
  letterbox : Mat Pixel
  splitU8 : Fin 3 → Mat UInt8
  hostInput : ℕ → ℚ

/-- Scratch memory before the first frame, over a buffer of zeros. -/
def Scratch.empty : Scratch where
  letterbox := { get := fun _ _ _ => 0 }
  splitU8 _ := { get := fun _ _ => 0 }
  hostInput _ := 0

/-- What OpenCV throws: the rectangle is not inside the matrix, the target of the resize is
empty. -/
inductive CvError where
  | roi | emptySize
  deriving DecidableEq

/-- `cv::Scalar(114, 114, 114)`. -/
def grey : Pixel := fun _ => 114

/-- The rectangle of the letterbox that the image goes to. -/
def Letterbox.roi (l : Letterbox) : Roi := ⟨l.padX, l.padY, l.scaledW, l.scaledH⟩

section

variable (resize : Mat Pixel → ℤ → ℤ → ℕ → ℕ → Pixel) (garbage : ℕ → ℕ → Pixel)

/-- The preprocessing of `process`. -/
def preprocess (s : Scratch) (image : Mat Pixel) : Except CvError Scratch :=
  let l := letterbox image.cols image.rows
  let canvas := (s.letterbox.create inputH inputW garbage).setTo grey
  if ¬ l.roi.Within canvas then .error .roi
  else if l.scaledW ≤ 0 ∨ l.scaledH ≤ 0 then .error .emptySize
  else
    let canvas := canvas.paste l.roi (resize image l.scaledW l.scaledH)
    let hostInput := (List.finRange 3).foldl
      (fun buffer c => convertTo buffer (canvas.channel c) (planeStart c)) s.hostInput
    .ok ⟨canvas, canvas.channel, hostInput⟩

/-- `sensor_msgs::msg::Image`; `data` gives the bytes from its start on. -/
structure ImageMsg where
  encoding : String
  height : ℕ
  width : ℕ
  step : ℕ
  data : ℕ → UInt8

/-- The zero-copy view of the message, whose height and width are below 2^31. -/
def ImageMsg.view (msg : ImageMsg) : Mat Pixel :=
  ⟨msg.height, msg.width, fun y x c => msg.data (y * msg.step + 3 * x + c)⟩

/-- `worker_loop` with a frame: another encoding is passed over. -/
def workerTurn (s : Scratch) (msg : ImageMsg) : Except CvError Scratch :=
  if msg.encoding ≠ "bgr8" then .ok s else preprocess resize garbage s msg.view

end

/-! ## The geometry of the letterbox -/

variable {cols rows : ℕ}

theorem letterbox_scale (hc : 0 < cols) (hr : 0 < rows) :
    (letterbox cols rows).scale = 640 / ((max cols rows : ℕ) : ℚ) := by
  have hc' : (0 : ℚ) < cols := by exact_mod_cast hc
  have hr' : (0 : ℚ) < rows := by exact_mod_cast hr
  show min ((640 : ℕ) / (cols : ℚ)) ((640 : ℕ) / (rows : ℚ)) = _
  rcases le_total cols rows with h | h
  · have hle : (640 : ℚ) / rows ≤ 640 / cols :=
      div_le_div_of_nonneg_left (by norm_num) hc' (by exact_mod_cast h)
    rw [max_eq_right h]
    exact min_eq_right hle
  · have hle : (640 : ℚ) / cols ≤ 640 / rows :=
      div_le_div_of_nonneg_left (by norm_num) hr' (by exact_mod_cast h)
    rw [max_eq_left h]
    exact min_eq_left hle

/-- An axis of `n` pixels, when the longer one has `m`. -/
theorem toInt_scaled (n m : ℕ) : toInt (n * (640 / (m : ℚ))) = ((640 * n / m : ℕ) : ℤ) := by
  have hfrac : (n : ℚ) * (640 / m) = ((640 * n : ℕ) : ℚ) / (m : ℚ) := by
    push_cast
    ring
  rw [toInt_eq_floor (by positivity), hfrac]
  exact Rat.floor_natCast_div_natCast _ _

theorem letterbox_scaled (hc : 0 < cols) (hr : 0 < rows) :
    (letterbox cols rows).scaledW = ((640 * cols / max cols rows : ℕ) : ℤ) ∧
      (letterbox cols rows).scaledH = ((640 * rows / max cols rows : ℕ) : ℤ) := by
  have hscale := letterbox_scale hc hr
  constructor
  · show toInt (cols * (letterbox cols rows).scale) = _
    rw [hscale]
    exact toInt_scaled _ _
  · show toInt (rows * (letterbox cols rows).scale) = _
    rw [hscale]
    exact toInt_scaled _ _

/-- One axis: it fits into the canvas, and its pads differ by at most a pixel. -/
structure AxisFits (scaled pad : ℤ) : Prop where
  scaled_le : scaled ≤ 640
  pad_nonneg : 0 ≤ pad
  inside : pad + scaled ≤ 640
  even : |(640 - (pad + scaled)) - pad| ≤ 1

theorem axisFits {scaled : ℤ} (h0 : 0 ≤ scaled) (hle : scaled ≤ 640) :
    AxisFits scaled ((640 - scaled).tdiv 2) := by
  rw [Int.tdiv_eq_ediv_of_nonneg (by omega)]
  refine ⟨hle, by omega, by omega, ?_⟩
  rw [abs_le]
  omega

/-- What holds of the letterbox of every image that has pixels. -/
structure Fits (l : Letterbox) : Prop where
  x : AxisFits l.scaledW l.padX
  y : AxisFits l.scaledH l.padY
  full : l.scaledW = 640 ∨ l.scaledH = 640
  nonneg : 0 ≤ l.scaledW ∧ 0 ≤ l.scaledH

theorem letterbox_fits (hc : 0 < cols) (hr : 0 < rows) : Fits (letterbox cols rows) := by
  obtain ⟨hw, hh⟩ := letterbox_scaled hc hr
  have hle : ∀ n, n ≤ max cols rows → 640 * n / max cols rows ≤ 640 := fun n hn =>
    Nat.div_le_of_le_mul (by rw [mul_comm (max cols rows)]; exact Nat.mul_le_mul_left _ hn)
  have hwle : (letterbox cols rows).scaledW ≤ 640 := by
    rw [hw]
    exact_mod_cast hle cols (le_max_left _ _)
  have hhle : (letterbox cols rows).scaledH ≤ 640 := by
    rw [hh]
    exact_mod_cast hle rows (le_max_right _ _)
  have hw0 : 0 ≤ (letterbox cols rows).scaledW := by
    rw [hw]
    exact Int.natCast_nonneg _
  have hh0 : 0 ≤ (letterbox cols rows).scaledH := by
    rw [hh]
    exact Int.natCast_nonneg _
  refine ⟨axisFits hw0 hwle, axisFits hh0 hhle, ?_, hw0, hh0⟩
  rcases le_total cols rows with h | h
  · right
    rw [hh, max_eq_right h, Nat.mul_div_cancel _ hr]
    rfl
  · left
    rw [hw, max_eq_left h, Nat.mul_div_cancel _ hc]
    rfl

/-- The shorter axis keeps a pixel exactly when the aspect ratio is at most 640. -/
theorem letterbox_nonempty_iff (hc : 0 < cols) (hr : 0 < rows) :
    (1 ≤ (letterbox cols rows).scaledW ∧ 1 ≤ (letterbox cols rows).scaledH) ↔
      cols ≤ 640 * rows ∧ rows ≤ 640 * cols := by
  obtain ⟨hw, hh⟩ := letterbox_scaled hc hr
  have hpos : 0 < max cols rows := lt_of_lt_of_le hc (le_max_left _ _)
  have hone : ∀ n : ℕ, (1 : ℤ) ≤ ((640 * n / max cols rows : ℕ) : ℤ) ↔ max cols rows ≤ 640 * n := by
    intro n
    rw [← Nat.one_le_div_iff hpos]
    exact_mod_cast Iff.rfl
  rw [hw, hh, hone, hone]
  omega

/-! ## What becomes of a frame -/

variable {resize : Mat Pixel → ℤ → ℤ → ℕ → ℕ → Pixel} {garbage : ℕ → ℕ → Pixel}

/-- A rectangle with pixels, inside the canvas. -/
def Roi.Usable (r : Roi) : Prop :=
  (0 < r.width ∧ 0 < r.height) ∧ 0 ≤ r.x ∧ r.x + r.width ≤ inputW ∧ 0 ≤ r.y ∧
    r.y + r.height ≤ inputH

/-- The canvas as the current image alone makes it. -/
def canvasOf (resize : Mat Pixel → ℤ → ℤ → ℕ → ℕ → Pixel) (image : Mat Pixel) : Mat Pixel :=
  let l := letterbox image.cols image.rows
  (⟨inputH, inputW, fun _ _ => grey⟩ : Mat Pixel).paste l.roi (resize image l.scaledW l.scaledH)

/-- Three channels, scaled into their planes. -/
def intoPlanes (buffer : ℕ → ℚ) (canvas : Mat Pixel) : ℕ → ℚ :=
  (List.finRange 3).foldl
    (fun buffer c => convertTo buffer (canvas.channel c) (planeStart c)) buffer

/-- Whatever was allocated or left, the canvas begins grey. -/
theorem setTo_create (m : Mat Pixel) :
    (m.create inputH inputW garbage).setTo grey = ⟨inputH, inputW, fun _ _ => grey⟩ := by
  rw [Mat.create]
  split
  case isTrue h => rw [Mat.setTo, h.1, h.2]
  case isFalse => rfl

/-- `preprocess` without an exception. -/
theorem preprocess_ok (image : Mat Pixel) (s : Scratch)
    (h : (letterbox image.cols image.rows).roi.Usable) :
    preprocess resize garbage s image =
      .ok ⟨canvasOf resize image, (canvasOf resize image).channel,
        intoPlanes s.hostInput (canvasOf resize image)⟩ := by
  obtain ⟨⟨hwidth, hheight⟩, hx, hxr, hy, hyr⟩ := h
  have hwithin : (letterbox image.cols image.rows).roi.Within
      (⟨inputH, inputW, fun _ _ => grey⟩ : Mat Pixel) :=
    ⟨hx, hwidth.le, hxr, hy, hheight.le, hyr⟩
  have hpixels : ¬ ((letterbox image.cols image.rows).scaledW ≤ 0 ∨
      (letterbox image.cols image.rows).scaledH ≤ 0) := by
    rw [not_or]
    exact ⟨not_le.mpr hwidth, not_le.mpr hheight⟩
  rw [preprocess, setTo_create, if_neg (not_not.mpr hwithin), if_neg hpixels]
  rfl

/-- A bgr8 message whose rectangle can be used. -/
theorem workerTurn_ok (msg : ImageMsg) (henc : msg.encoding = "bgr8") (s : Scratch)
    (h : (letterbox msg.width msg.height).roi.Usable) :
    workerTurn resize garbage s msg =
      .ok ⟨canvasOf resize msg.view, (canvasOf resize msg.view).channel,
        intoPlanes s.hostInput (canvasOf resize msg.view)⟩ :=
  (if_neg (not_not.mpr henc)).trans (preprocess_ok msg.view s h)

/-- The worker gets through a frame. -/
def Passes (msg : ImageMsg) : Prop :=
  ∀ resize garbage s, ∃ s', workerTurn resize garbage s msg = .ok s'

/-- The letterbox of a message can be used. -/
structure Usable (msg : ImageMsg) : Prop where
  fits : Fits (letterbox msg.width msg.height)
  pixels : 1 ≤ (letterbox msg.width msg.height).scaledW ∧
    1 ≤ (letterbox msg.width msg.height).scaledH
  passes : Passes msg

theorem Fits.roi {l : Letterbox} (h : Fits l) (hpixels : 1 ≤ l.scaledW ∧ 1 ≤ l.scaledH) :
    l.roi.Usable :=
  ⟨hpixels, h.x.pad_nonneg, h.x.inside, h.y.pad_nonneg, h.y.inside⟩

/-- `preprocess` with an image that has no pixel left on one axis. -/
theorem preprocess_throws (image : Mat Pixel) (s : Scratch) (hw : 0 < image.cols)
    (hh : 0 < image.rows)
    (h : ¬ (1 ≤ (letterbox image.cols image.rows).scaledW ∧
      1 ≤ (letterbox image.cols image.rows).scaledH)) :
    preprocess resize garbage s image = .error .emptySize := by
  have hfits := letterbox_fits hw hh
  have hwithin : (letterbox image.cols image.rows).roi.Within
      (⟨inputH, inputW, fun _ _ => grey⟩ : Mat Pixel) :=
    ⟨hfits.x.pad_nonneg, hfits.nonneg.1, hfits.x.inside, hfits.y.pad_nonneg, hfits.nonneg.2,
      hfits.y.inside⟩
  have hempty : (letterbox image.cols image.rows).scaledW ≤ 0 ∨
      (letterbox image.cols image.rows).scaledH ≤ 0 := by omega
  rw [preprocess, setTo_create, if_neg (not_not.mpr hwithin), if_pos hempty]

/-- It ends the worker. -/
theorem workerTurn_throws {msg : ImageMsg} (henc : msg.encoding = "bgr8") (s : Scratch)
    (hw : 0 < msg.width) (hh : 0 < msg.height)
    (h : ¬ (1 ≤ (letterbox msg.width msg.height).scaledW ∧
      1 ≤ (letterbox msg.width msg.height).scaledH)) :
    workerTurn resize garbage s msg = .error .emptySize :=
  (if_neg (not_not.mpr henc)).trans (preprocess_throws msg.view s hw hh h)

/-- **The letterbox is usable** exactly for the images that are at most 640 times as wide as high
and at most 640 times as high as wide; the worker gets through exactly these. -/
theorem letterbox_usable_iff (msg : ImageMsg) (henc : msg.encoding = "bgr8")
    (hw : 1 ≤ msg.width) (hh : 1 ≤ msg.height) :
    (Usable msg ↔ msg.width ≤ 640 * msg.height ∧ msg.height ≤ 640 * msg.width) ∧
      (Passes msg ↔ msg.width ≤ 640 * msg.height ∧ msg.height ≤ 640 * msg.width) := by
  have hfits := letterbox_fits hw hh
  rw [← letterbox_nonempty_iff hw hh]
  have hpasses : 1 ≤ (letterbox msg.width msg.height).scaledW ∧
      1 ≤ (letterbox msg.width msg.height).scaledH → Passes msg := fun hpixels _ _ s =>
    ⟨_, workerTurn_ok msg henc s (hfits.roi hpixels)⟩
  refine ⟨⟨fun h => h.pixels, fun hpixels => ⟨hfits, hpixels, hpasses hpixels⟩⟩, fun h => ?_,
    hpasses⟩
  by_contra hpixels
  obtain ⟨s', hs'⟩ := h (fun _ _ _ _ _ => grey) (fun _ _ => grey) Scratch.empty
  rw [workerTurn_throws henc _ hw hh hpixels] at hs'
  cases hs'

/-- A message of `width` × `height` pixels. -/
def blank (width height : ℕ) : ImageMsg := ⟨"bgr8", height, width, 3 * width, fun _ => 0⟩

theorem letterbox_usable_iff_1080p : Usable (blank 1920 1080) := by
  obtain ⟨husable, -⟩ := letterbox_usable_iff (blank 1920 1080) rfl (by decide) (by decide)
  exact husable.mpr (by decide)

/-- A line of 641 pixels is resized to no rows. -/
theorem letterbox_empty : ¬ ∀ msg : ImageMsg, msg.encoding = "bgr8" → 1 ≤ msg.width →
    1 ≤ msg.height → Usable msg := by
  intro hall
  have hpixels := (hall (blank 641 1) rfl (by decide) (by decide)).pixels
  exact absurd hpixels (by decide +kernel)

/-! ## Into the planes -/

theorem writeRows_get {buffer : ℕ → ℚ} {start y x : ℕ} {m : Mat ℚ} (hy : y < m.rows)
    (hx : x < m.cols) : writeRows buffer start m (start + (y * m.cols + x)) = m.get y x := by
  have hlt : y * m.cols + x < m.rows * m.cols := by
    calc y * m.cols + x < y * m.cols + m.cols := by omega
      _ = (y + 1) * m.cols := by ring
      _ ≤ m.rows * m.cols := Nat.mul_le_mul_right _ hy
  have hpos : 0 < m.cols := by omega
  rw [writeRows, if_pos ⟨by omega, by omega⟩, Nat.add_sub_cancel_left, Nat.add_comm (y * m.cols),
    Nat.add_mul_div_right _ _ hpos, Nat.add_mul_mod_self_right, Nat.div_eq_of_lt hx,
    Nat.mod_eq_of_lt hx, Nat.zero_add]

theorem writeRows_other {buffer : ℕ → ℚ} {start i : ℕ} {m : Mat ℚ}
    (hi : i < start ∨ start + m.rows * m.cols ≤ i) : writeRows buffer start m i = buffer i :=
  if_neg (by omega)

theorem planeStart_two_sub (c : Fin 3) : planeStart (2 - c) = c * plane := by
  fin_cases c <;> rfl

/-- A float of one plane lies outside of the others. -/
theorem planeStart_apart {c c' : Fin 3} (h : c ≠ c') {i : ℕ} (hi : i < plane) :
    planeStart c + i < planeStart c' ∨ planeStart c' + plane ≤ planeStart c + i := by
  fin_cases c <;> fin_cases c' <;> first | exact absurd rfl h | (simp only [planeStart]; omega)

section Planes

variable {canvas : Mat Pixel} (hrows : canvas.rows = inputH) (hcols : canvas.cols = inputW)

include hrows hcols

theorem convertTo_get (buffer : ℕ → ℚ) (c c' : Fin 3) {y x : ℕ} (hy : y < inputH)
    (hx : x < inputW) :
    convertTo buffer (canvas.channel c') (planeStart c') (planeStart c + (y * inputW + x)) =
      if c = c' then ((canvas.get y x c).toNat : ℚ) * (1 / 255)
      else buffer (planeStart c + (y * inputW + x)) := by
  rw [convertTo, if_pos ⟨hrows, hcols⟩]
  split
  case isTrue h =>
      subst h
      rw [← hcols] at hx ⊢
      rw [← hrows] at hy
      exact writeRows_get hy hx
  case isFalse h =>
      have hi : y * inputW + x < plane := by
        calc y * inputW + x < y * inputW + inputW := by omega
          _ = (y + 1) * inputW := by ring
          _ ≤ inputH * inputW := Nat.mul_le_mul_right _ hy
          _ = plane := Nat.mul_comm _ _
      refine writeRows_other ?_
      show _ ∨ planeStart c' + canvas.rows * canvas.cols ≤ _
      rw [hrows, hcols, Nat.mul_comm inputH]
      exact planeStart_apart h hi

/-- The planes written for a list of channels. -/
theorem foldl_convertTo_get (c : Fin 3) {y x : ℕ} (hy : y < inputH) (hx : x < inputW)
    (cs : List (Fin 3)) : ∀ buffer : ℕ → ℚ,
    cs.foldl (fun buffer c => convertTo buffer (canvas.channel c) (planeStart c)) buffer
        (planeStart c + (y * inputW + x)) =
      if c ∈ cs then ((canvas.get y x c).toNat : ℚ) * (1 / 255)
      else buffer (planeStart c + (y * inputW + x)) := by
  induction cs with
  | nil => intro buffer; rfl
  | cons c' cs ih =>
      intro buffer
      rw [List.foldl_cons, ih, convertTo_get hrows hcols buffer c c' hy hx]
      by_cases hmem : c ∈ cs
      · rw [if_pos hmem, if_pos (List.mem_cons_of_mem _ hmem)]
      · rw [if_neg hmem]
        simp only [List.mem_cons, hmem, or_false]

theorem intoPlanes_get (buffer : ℕ → ℚ) (c : Fin 3) {y x : ℕ} (hy : y < inputH)
    (hx : x < inputW) : intoPlanes buffer canvas (c * plane + (y * inputW + x)) =
      ((canvas.get y x (2 - c)).toNat : ℚ) * (1 / 255) := by
  rw [← planeStart_two_sub, intoPlanes,
    foldl_convertTo_get hrows hcols (2 - c) hy hx, if_pos (List.mem_finRange _)]

end Planes

/-! ## The input of the network -/

/-- The scratch memory is what the image alone makes of it. -/
structure InputOf (resize : Mat Pixel → ℤ → ℤ → ℕ → ℕ → Pixel) (image : Mat Pixel)
    (l : Letterbox) (s : Scratch) : Prop where
  letterbox : s.letterbox = canvasOf resize image
  splitU8 : ∀ c, s.splitU8 c = (canvasOf resize image).channel c
  hostInput : ∀ c : Fin 3, ∀ y < 640, ∀ x < 640,
    s.hostInput (c * 640 * 640 + y * 640 + x) =
      if l.roi.Contains y x then
        1 / 255 * ((resize image l.scaledW l.scaledH (y - l.padY).toNat (x - l.padX).toNat
          (2 - c)).toNat : ℚ)
      else 114 / 255

theorem inputOf (image : Mat Pixel) (buffer : ℕ → ℚ) :
    InputOf resize image (letterbox image.cols image.rows)
      ⟨canvasOf resize image, (canvasOf resize image).channel,
        intoPlanes buffer (canvasOf resize image)⟩ where
  letterbox := rfl
  splitU8 _ := rfl
  hostInput c y hy x hx := by
    have hindex : (c : ℕ) * 640 * 640 + y * 640 + x = c * plane + (y * inputW + x) := by
      simp only [plane, inputW, inputH]
      ring
    show intoPlanes buffer (canvasOf resize image) _ = _
    rw [hindex, intoPlanes_get rfl rfl buffer c hy hx, mul_comm]
    show 1 / 255 * (((if _ then _ else grey : Pixel) (2 - c)).toNat : ℚ) = _
    split
    case isTrue => rfl
    case isFalse =>
        have hgrey : (114 : UInt8).toNat = 114 := rfl
        show (1 / 255 * ((114 : UInt8).toNat : ℚ)) = 114 / 255
        rw [hgrey]
        norm_num

/-- **The input of the network is a function of the current frame only**: after any history, a
frame whose rectangle has pixels and lies inside the canvas decides the three buffers. -/
theorem network_input {history : List ImageMsg} {s₀ s : Scratch} (msg : ImageMsg)
    (hs : history.foldlM (workerTurn resize garbage) s₀ = .ok s) (henc : msg.encoding = "bgr8")
    (hroi : (letterbox msg.width msg.height).roi.Usable) :
    ∃ s', (history ++ [msg]).foldlM (workerTurn resize garbage) s₀ = .ok s' ∧
      InputOf resize msg.view (letterbox msg.width msg.height) s' := by
  refine ⟨_, ?_, inputOf msg.view s.hostInput⟩
  rw [List.foldlM_append, hs]
  show ([msg].foldlM (workerTurn resize garbage) s) = _
  rw [List.foldlM_cons, workerTurn_ok msg henc s hroi]
  rfl

/-- A resize that takes the nearest pixel. -/
def nearest (image : Mat Pixel) (width height : ℤ) (y x : ℕ) : Pixel :=
  image.get (y * image.rows / height.toNat) (x * image.cols / width.toNat)

theorem network_input_portrait :
    ∃ s, ([blank 1920 1080] ++ [blank 480 640]).foldlM (workerTurn nearest fun _ _ => grey)
        Scratch.empty = .ok s ∧
      InputOf nearest (blank 480 640).view (letterbox 480 640) s := by
  have hroi : ∀ width height : ℕ, 1 ≤ width → 1 ≤ height →
      width ≤ 640 * height ∧ height ≤ 640 * width → (letterbox width height).roi.Usable :=
    fun _ _ hw hh hratio => (letterbox_fits hw hh).roi ((letterbox_nonempty_iff hw hh).mpr hratio)
  have hfirst : ∃ s, [blank 1920 1080].foldlM (workerTurn nearest fun _ _ => grey)
      Scratch.empty = .ok s := by
    rw [List.foldlM_cons,
      workerTurn_ok (blank 1920 1080) rfl Scratch.empty
        (hroi 1920 1080 (by decide) (by decide) (by decide))]
    exact ⟨_, rfl⟩
  obtain ⟨s, hs⟩ := hfirst
  exact network_input (blank 480 640) hs rfl
    (hroi 480 640 (by decide) (by decide) (by decide))

end JetsonPerception.Detector
