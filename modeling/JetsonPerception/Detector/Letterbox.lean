/-
# The letterbox and its inverse

`TrtDetectorNode::process` shrinks the image by `scale` into the 640 × 640 input of the
network, and `decode_yolov8` maps the boxes back.  The resize uses the scaled size truncated
to whole pixels, the way back divides by the untruncated `scale`, so an axis of `n` pixels
comes back shrunk by `⌊n * scale⌋ / (n * scale)`.
-/
import JetsonPerception.Detector.Postprocess
import Mathlib.Data.Rat.Floor
import Mathlib.Tactic.FieldSimp
import Mathlib.Tactic.Linarith
import Mathlib.Tactic.Positivity

namespace JetsonPerception.Detector

/-- `kInputW` and `kInputH`. -/
def inputW : ℕ := 640
def inputH : ℕ := 640

/-- `static_cast<int>`: truncation towards zero. -/
def toInt (q : ℚ) : ℤ := q.num.tdiv q.den

theorem toInt_eq_floor {q : ℚ} (h : 0 ≤ q) : toInt q = ⌊q⌋ := by
  rw [toInt, Int.tdiv_eq_ediv_of_nonneg (Rat.num_nonneg.mpr h), Rat.floor_def']

/-- What `process` computes from the size of the image. -/
structure Letterbox where
  scale : ℚ
  scaledW : ℤ
  scaledH : ℤ
  padX : ℤ
  padY : ℤ
  deriving DecidableEq

def letterbox (cols rows : ℕ) : Letterbox :=
  let scale := min ((inputW : ℚ) / cols) ((inputH : ℚ) / rows)
  let scaledW := toInt (cols * scale)
  let scaledH := toInt (rows * scale)
  { scale, scaledW, scaledH
    padX := (inputW - scaledW).tdiv 2
    padY := (inputH - scaledH).tdiv 2 }

/-- What it hands to `decode_yolov8`. -/
def Letterbox.geometry (l : Letterbox) (cols rows : ℕ) : Geometry :=
  ⟨l.scale, l.padX, l.padY, cols, rows⟩

/-- Where the resize into the region of interest takes a box of the image. -/
def Letterbox.forward (l : Letterbox) (cols rows : ℕ) (b : Rect) : Rect where
  x := b.x * l.scaledW / cols + l.padX
  y := b.y * l.scaledH / rows + l.padY
  width := b.width * l.scaledW / cols
  height := b.height * l.scaledH / rows

/-! ## One axis -/

/-- What an axis of `n` pixels, scaled by `s` and truncated to `m`, is shrunk by when it comes
back. -/
def shrink (n s : ℚ) (m : ℤ) : ℚ := m / (n * s)

section Axis

variable {n s : ℚ} {m : ℤ}

theorem shrink_pos (hns : 0 < n * s) (hm : 1 ≤ m) : 0 < shrink n s m :=
  div_pos (by exact_mod_cast hm) hns

theorem shrink_le_one (hns : 0 < n * s) (hm : m = ⌊n * s⌋) : shrink n s m ≤ 1 := by
  rw [shrink, div_le_one hns, hm]
  exact Int.floor_le _

/-- When the scaled axis is a whole number of pixels, nothing is lost. -/
theorem shrink_eq_one {k : ℤ} (hns : 0 < n * s) (hm : m = ⌊n * s⌋) (hk : n * s = k) :
    shrink n s m = 1 := by
  rw [shrink, hm, hk, Int.floor_intCast]
  exact div_self (by rw [← hk]; exact hns.ne')

/-- A coordinate moves by less than a pixel of the network. -/
theorem shrink_error (hn : 0 < n) (hs : 0 < s) (hm : m = ⌊n * s⌋) {x : ℚ} (h0 : 0 ≤ x)
    (hx : x ≤ n) : |x * shrink n s m - x| < 1 / s := by
  have hns : 0 < n * s := mul_pos hn hs
  have hle : shrink n s m ≤ 1 := shrink_le_one hns hm
  have hlost : n * s - m < 1 := by
    have := Int.lt_floor_add_one (n * s)
    rw [hm]
    linarith
  have hn' : n * (1 - shrink n s m) = (n * s - m) / s := by
    rw [shrink]
    field_simp
  rw [abs_sub_comm, abs_of_nonneg (by nlinarith)]
  calc x - x * shrink n s m = x * (1 - shrink n s m) := by ring
    _ ≤ n * (1 - shrink n s m) := mul_le_mul_of_nonneg_right hx (by linarith)
    _ = (n * s - m) / s := hn'
    _ < 1 / s := div_lt_div_of_pos_right hlost hs

end Axis

/-! ## A tensor with one anchor above the threshold -/

variable {numClasses numAnchors : ℕ}

theorem finRange_around {n : ℕ} (c : Fin n) :
    ∃ pre post, List.finRange n = pre ++ c :: post ∧ c ∉ pre ∧ c ∉ post := by
  obtain ⟨pre, post, h⟩ := List.append_of_mem (List.mem_finRange c)
  have hnodup := List.nodup_finRange n
  rw [h, List.nodup_append] at hnodup
  obtain ⟨-, hpost, hpre⟩ := hnodup
  exact ⟨pre, post, h, fun hc => hpre c hc c List.mem_cons_self rfl,
    (List.nodup_cons.mp hpost).1⟩

theorem foldl_better_of_le {s : Fin numClasses → ℚ} {cs : List (Fin numClasses)} {st : ℤ × ℚ}
    (h : ∀ c ∈ cs, s c ≤ st.2) : cs.foldl (better s) st = st := by
  induction cs with
  | nil => rfl
  | cons c cs ih =>
      have hc : better s st c = st := if_neg (not_lt.mpr (h c List.mem_cons_self))
      rw [List.foldl_cons, hc]
      exact ih fun c hc => h c (List.mem_cons_of_mem _ hc)

variable {out : Tensor numClasses numAnchors} {t : ℚ}

theorem bestClass_none {i : Fin numAnchors} (h : ∀ c, out.read (Fin.natAdd 4 c) i ≤ t) :
    bestClass out t i = (-1, t) :=
  foldl_better_of_le fun c _ => h c

theorem bestClass_only {i : Fin numAnchors} {c : Fin numClasses}
    (hc : t < out.read (Fin.natAdd 4 c) i)
    (h : ∀ k ≠ c, out.read (Fin.natAdd 4 k) i ≤ t) :
    bestClass out t i = ((c : ℤ), out.read (Fin.natAdd 4 c) i) := by
  obtain ⟨pre, post, hall, hpre, hpost⟩ := finRange_around c
  rw [bestClass, hall, List.foldl_append, List.foldl_cons,
    foldl_better_of_le fun k hk => h k (ne_of_mem_of_not_mem hk hpre), better, if_pos hc]
  exact foldl_better_of_le fun k hk => (h k (ne_of_mem_of_not_mem hk hpost)).trans hc.le

/-- The tensor shows the box `b` at anchor `i` and class `c`, and nothing else. -/
structure Presents (out : Tensor numClasses numAnchors) (t : ℚ) (i : Fin numAnchors)
    (c : Fin numClasses) (b : Rect) : Prop where
  cx : out.read (Fin.castAdd numClasses 0) i = b.x + b.width / 2
  cy : out.read (Fin.castAdd numClasses 1) i = b.y + b.height / 2
  w : out.read (Fin.castAdd numClasses 2) i = b.width
  h : out.read (Fin.castAdd numClasses 3) i = b.height
  above : t < out.read (Fin.natAdd 4 c) i
  other : ∀ j k, j ≠ i ∨ k ≠ c → out.read (Fin.natAdd 4 k) j ≤ t

variable {meet : Rect → Rect → Rect} {i : Fin numAnchors} {c : Fin numClasses} {b : Rect}
  {g : Geometry}

/-- Such a tensor decodes to that anchor's detection, if its clamped box has an area. -/
theorem decode_presents (h : Presents out t i c b)
    (harea : 0 < (meet (anchorBox out g i) ⟨0, 0, g.imgW, g.imgH⟩).area) :
    decodeYolov8 meet out t g =
      [⟨meet (anchorBox out g i) ⟨0, 0, g.imgW, g.imgH⟩, out.read (Fin.natAdd 4 c) i, c⟩] := by
  have hi : decodeAnchor meet out t g i =
      some ⟨meet (anchorBox out g i) ⟨0, 0, g.imgW, g.imgH⟩, out.read (Fin.natAdd 4 c) i, c⟩ := by
    rw [decodeAnchor, bestClass_only h.above fun k hk => h.other i k (.inr hk)]
    simp [harea]
  have hj : ∀ j, j ≠ i → decodeAnchor meet out t g j = none := by
    intro j hj
    rw [decodeAnchor, bestClass_none fun k => h.other j k (.inl hj)]
    rfl
  obtain ⟨pre, post, hall, hpre, hpost⟩ := finRange_around i
  have hnone : ∀ l : List (Fin numAnchors), i ∉ l →
      l.filterMap (decodeAnchor meet out t g) = [] := fun l hl =>
    List.filterMap_eq_nil_iff.mpr fun j hm => hj j (ne_of_mem_of_not_mem hm hl)
  rw [decodeYolov8, hall, List.filterMap_append, List.filterMap_cons, hi, hnone pre hpre,
    hnone post hpost]
  rfl

/-! ## There and back -/

/-- The box lies in the image and has an area. -/
structure Rect.Inside (b : Rect) (cols rows : ℕ) : Prop where
  left : 0 ≤ b.x
  top : 0 ≤ b.y
  width : 0 < b.width
  height : 0 < b.height
  right : b.right ≤ cols
  bottom : b.bottom ≤ rows

/-- The part of a box inside the image, when the box is. -/
theorem meet_of_inside (hmeet : Intersects meet) {cols rows : ℕ} (h : b.Inside cols rows) :
    meet b ⟨0, 0, cols, rows⟩ = b := by
  have hr : b.x < b.right := lt_add_of_pos_right _ h.width
  have hb : b.y < b.bottom := lt_add_of_pos_right _ h.height
  have hx : max b.x 0 = b.x := max_eq_left h.left
  have hy : max b.y 0 = b.y := max_eq_left h.top
  have hmr : min b.right (0 + cols) = b.right := min_eq_left (by simpa using h.right)
  have hmb : min b.bottom (0 + rows) = b.bottom := min_eq_left (by simpa using h.bottom)
  have hover : b.Overlaps ⟨0, 0, cols, rows⟩ := by
    refine ⟨?_, ?_⟩
    · show max b.x 0 < min b.right (0 + cols)
      rw [hx, hmr]
      exact hr
    · show max b.y 0 < min b.bottom (0 + rows)
      rw [hy, hmb]
      exact hb
  rw [hmeet.overlap _ _ hover]
  show Rect.mk (max b.x 0) (max b.y 0) (min b.right (0 + cols) - max b.x 0)
    (min b.bottom (0 + rows) - max b.y 0) = b
  rw [hx, hy, hmr, hmb, Rect.right, Rect.bottom, add_sub_cancel_left, add_sub_cancel_left]

/-- A box shrunk towards the origin. -/
def Rect.shrunk (b : Rect) (u v : ℚ) : Rect := ⟨b.x * u, b.y * v, b.width * u, b.height * v⟩

theorem Rect.shrunk_right (b : Rect) (u v : ℚ) : (b.shrunk u v).right = b.right * u := by
  simp only [Rect.right, Rect.shrunk]
  ring

theorem Rect.shrunk_bottom (b : Rect) (u v : ℚ) : (b.shrunk u v).bottom = b.bottom * v := by
  simp only [Rect.bottom, Rect.shrunk]
  ring

theorem Rect.Inside.right_nonneg {cols rows : ℕ} (h : b.Inside cols rows) : 0 ≤ b.right :=
  add_nonneg h.left h.width.le

theorem Rect.Inside.bottom_nonneg {cols rows : ℕ} (h : b.Inside cols rows) : 0 ≤ b.bottom :=
  add_nonneg h.top h.height.le

theorem Rect.Inside.shrunk {cols rows : ℕ} (h : b.Inside cols rows) {u v : ℚ} (hu : 0 < u)
    (hu' : u ≤ 1) (hv : 0 < v) (hv' : v ≤ 1) : (b.shrunk u v).Inside cols rows where
  left := mul_nonneg h.left hu.le
  top := mul_nonneg h.top hv.le
  width := mul_pos h.width hu
  height := mul_pos h.height hv
  right := by
    rw [Rect.shrunk_right]
    exact (mul_le_of_le_one_right h.right_nonneg hu').trans h.right
  bottom := by
    rw [Rect.shrunk_bottom]
    exact (mul_le_of_le_one_right h.bottom_nonneg hv').trans h.bottom

theorem pos_of_scaled {n : ℕ} {s : ℚ} (h : 1 ≤ toInt (n * s)) : 0 < n := by
  rcases Nat.eq_zero_or_pos n with rfl | hn
  · rw [Nat.cast_zero, zero_mul] at h
    exact absurd h (by decide)
  · exact hn

theorem letterbox_scale_pos {cols rows : ℕ} (hcols : 0 < cols) (hrows : 0 < rows) :
    0 < (letterbox cols rows).scale := by
  have hw : (0 : ℚ) < inputW / cols := div_pos (by norm_num [inputW]) (by exact_mod_cast hcols)
  have hh : (0 : ℚ) < inputH / rows := div_pos (by norm_num [inputH]) (by exact_mod_cast hrows)
  exact lt_min hw hh

/-- The way back from where the resize took a box. -/
theorem anchorBox_forward {cols rows : ℕ} {l : Letterbox}
    (h : Presents out t i c (l.forward cols rows b)) :
    anchorBox out (l.geometry cols rows) i =
      b.shrunk (shrink cols l.scale l.scaledW) (shrink rows l.scale l.scaledH) := by
  rw [anchorBox, h.cx, h.cy, h.w, h.h]
  simp only [unletterbox, Letterbox.forward, Letterbox.geometry, Rect.shrunk, shrink]
  congr 1
  all_goals ring

/-- **The letterbox inverse undoes the letterbox**, to less than one pixel of the network.
A box of the image, taken where the resize takes it and shown to the decoder alone above the
threshold, comes back as the one detection; the clamp leaves it as it is; each edge is off by
less than `1 / scale`; and when the scaled sizes are whole the box is the same. -/
theorem letterbox_roundtrip (hmeet : Intersects meet) {cols rows : ℕ}
    (hw : 1 ≤ (letterbox cols rows).scaledW) (hh : 1 ≤ (letterbox cols rows).scaledH)
    (hb : b.Inside cols rows)
    (hout : Presents out t i c ((letterbox cols rows).forward cols rows b)) :
    let scale := (letterbox cols rows).scale
    let g := (letterbox cols rows).geometry cols rows
    ∃ d, decodeYolov8 meet out t g = [d] ∧
      d.box = anchorBox out g i ∧ d.score = out.read (Fin.natAdd 4 c) i ∧ d.classId = c ∧
      |d.box.x - b.x| < 1 / scale ∧ |d.box.y - b.y| < 1 / scale ∧
      |d.box.right - b.right| < 1 / scale ∧ |d.box.bottom - b.bottom| < 1 / scale ∧
      ((∃ m : ℤ, cols * scale = m) → (∃ m : ℤ, rows * scale = m) → d.box = b) := by
  intro scale g
  have hcols : 0 < cols := pos_of_scaled hw
  have hrows : 0 < rows := pos_of_scaled hh
  have hscale : 0 < scale := letterbox_scale_pos hcols hrows
  have hc : (0 : ℚ) < cols := by exact_mod_cast hcols
  have hr : (0 : ℚ) < rows := by exact_mod_cast hrows
  have hcs : 0 < cols * scale := mul_pos hc hscale
  have hrs : 0 < rows * scale := mul_pos hr hscale
  have hfw : (letterbox cols rows).scaledW = ⌊cols * scale⌋ := toInt_eq_floor hcs.le
  have hfh : (letterbox cols rows).scaledH = ⌊rows * scale⌋ := toInt_eq_floor hrs.le
  have hbox := anchorBox_forward hout
  have hin := hb.shrunk (shrink_pos hcs hw) (shrink_le_one hcs hfw) (shrink_pos hrs hh)
    (shrink_le_one hrs hfh)
  rw [← hbox] at hin
  have hclamp : meet (anchorBox out g i) ⟨0, 0, g.imgW, g.imgH⟩ = anchorBox out g i :=
    meet_of_inside hmeet hin
  have harea : 0 < (meet (anchorBox out g i) ⟨0, 0, g.imgW, g.imgH⟩).area := by
    rw [hclamp]
    exact mul_pos hin.width hin.height
  have hdec := decode_presents hout harea
  rw [hclamp] at hdec
  have hxr : b.x ≤ cols := (le_add_of_nonneg_right hb.width.le).trans hb.right
  have hyb : b.y ≤ rows := (le_add_of_nonneg_right hb.height.le).trans hb.bottom
  refine ⟨_, hdec, rfl, rfl, rfl, ?_, ?_, ?_, ?_, ?_⟩
  · rw [hbox]
    exact shrink_error hc hscale hfw hb.left hxr
  · rw [hbox]
    exact shrink_error hr hscale hfh hb.top hyb
  · rw [hbox, Rect.shrunk_right]
    exact shrink_error hc hscale hfw hb.right_nonneg hb.right
  · rw [hbox, Rect.shrunk_bottom]
    exact shrink_error hr hscale hfh hb.bottom_nonneg hb.bottom
  · rintro ⟨m, hm⟩ ⟨m', hm'⟩
    rw [hbox, shrink_eq_one hcs hfw hm, shrink_eq_one hrs hfh hm']
    simp [Rect.shrunk]

/-- The production case: a box of 90 × 90 in the middle of a 1080p frame. -/
def centred : Tensor 1 1 := ⟨#[320, 320, 30, 30, 8 / 10], rfl⟩

theorem letterbox_roundtrip_1080p :
    ∃ d, decodeYolov8 Rect.meet centred (1 / 2) ((letterbox 1920 1080).geometry 1920 1080) = [d] ∧
      |d.box.x - 915| < 3 ∧ |d.box.right - 1005| < 3 := by
  have hout : Presents centred (1 / 2) 0 0
      ((letterbox 1920 1080).forward 1920 1080 ⟨915, 495, 90, 90⟩) := by
    constructor <;> decide +kernel
  have hin : Rect.Inside ⟨915, 495, 90, 90⟩ 1920 1080 := by
    constructor <;> norm_num [Rect.right, Rect.bottom]
  obtain ⟨d, hd, -, -, -, hx, -, hr, -, -⟩ :=
    letterbox_roundtrip Rect.meet_intersects (by decide +kernel) (by decide +kernel) hin hout
  have hscale : 1 / (letterbox 1920 1080).scale = 3 := by decide +kernel
  rw [hscale] at hx hr
  refine ⟨d, hd, hx, ?_⟩
  have hright : Rect.right ⟨915, 495, 90, 90⟩ = 1005 := by norm_num [Rect.right]
  rwa [hright] at hr

end JetsonPerception.Detector
