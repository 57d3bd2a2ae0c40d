/-
# The overlay, and what a frame needs to get through

The overlay is drawn only for subscribers, on a copy that is at most `overlay_width` wide.  Every
box is scaled with it and rounded number by number, so a rectangle may stick out by a pixel, and no
more (`overlay_inside`).

`process` has no handler for what OpenCV throws, and neither has the thread that runs it: a frame
with no pixel left on one axis ends the process.  There are two places for that, the letterbox and,
while somebody looks, the overlay (`survives_iff`).
-/
import JetsonPerception.Detector.Valid

namespace JetsonPerception.Detector

variable {P : Settings} {X : Platform}

/-! ## The canvas -/

/-- The overlay is smaller than the image. -/
def Settings.Shrinks (P : Settings) (cols : ℕ) : Prop := 0 < P.overlayWidth ∧ P.overlayWidth < cols

instance (P : Settings) (cols : ℕ) : Decidable (P.Shrinks cols) :=
  inferInstanceAs (Decidable (_ ∧ _))

theorem overlayCanvas_shrunk (image : Mat Pixel) (h : P.Shrinks image.cols) :
    overlayCanvas P X image =
      if HalfEven.round ((image.rows : ℚ) * (P.overlayWidth / image.cols)) ≤ 0 then
        .error (.cv .emptySize)
      else .ok (P.overlayWidth / image.cols,
        ⟨(HalfEven.round ((image.rows : ℚ) * (P.overlayWidth / image.cols))).toNat,
          P.overlayWidth.toNat, X.resizeArea image P.overlayWidth
            (HalfEven.round ((image.rows : ℚ) * (P.overlayWidth / image.cols)))⟩) := by
  have hcols : (0 : ℚ) < image.cols := by
    have hpos : (0 : ℤ) < image.cols := h.1.trans h.2
    exact_mod_cast hpos
  have hwidth : HalfEven.round ((image.cols : ℚ) * (P.overlayWidth / image.cols)) =
      P.overlayWidth := by
    rw [mul_div_cancel₀ _ hcols.ne', HalfEven.round_intCast]
  have hnonpos : ¬ P.overlayWidth ≤ 0 := not_le.mpr h.1
  have hwide : 0 < P.overlayWidth ∧ (image.cols : ℤ) > P.overlayWidth := h
  rw [overlayCanvas, if_pos hwide]
  simp only [hwidth, hnonpos, false_or]

theorem overlayCanvas_whole (image : Mat Pixel) (h : ¬ P.Shrinks image.cols) :
    overlayCanvas P X image = .ok (1, image) :=
  if_neg h

/-- The shrunk image keeps a row. -/
theorem overlayCanvas_ok_iff (image : Mat Pixel) :
    (∃ canvas, overlayCanvas P X image = .ok canvas) ↔
      (P.Shrinks image.cols → (image.cols : ℤ) < 2 * P.overlayWidth * image.rows) := by
  by_cases h : P.Shrinks image.cols
  · have hcols : (0 : ℚ) < image.cols := by
      have hpos : (0 : ℤ) < image.cols := h.1.trans h.2
      exact_mod_cast hpos
    have hround : 1 ≤ HalfEven.round ((image.rows : ℚ) * (P.overlayWidth / image.cols)) ↔
        (image.cols : ℤ) < 2 * P.overlayWidth * image.rows := by
      rw [HalfEven.one_le_round_iff, ← mul_div_assoc, div_lt_div_iff₀ two_pos hcols, one_mul]
      have hcast : (image.rows : ℚ) * P.overlayWidth * 2 =
          ((2 * P.overlayWidth * image.rows : ℤ) : ℚ) := by
        push_cast
        ring
      rw [hcast]
      exact_mod_cast Iff.rfl
    rw [overlayCanvas_shrunk image h, ← hround]
    constructor
    · rintro ⟨canvas, hcanvas⟩ -
      split at hcanvas
      · cases hcanvas
      · omega
    · intro hone
      exact ⟨_, if_neg (by have := hone h; omega)⟩
  · exact ⟨fun _ hshrinks => absurd hshrinks h, fun _ => ⟨_, overlayCanvas_whole image h⟩⟩

/-! ## What a frame needs to get through -/

/-- The frame has a pixel left on each axis: in the letterbox, and in the overlay if somebody
looks at it. -/
structure Survives (P : Settings) (frame : Input) : Prop where
  letterbox : frame.msg.width ≤ 640 * frame.msg.height ∧ frame.msg.height ≤ 640 * frame.msg.width
  overlay : frame.subscribed = true → P.Shrinks frame.msg.width →
    (frame.msg.width : ℤ) < 2 * P.overlayWidth * frame.msg.height

/-- The frame has pixels. -/
def Input.HasPixels (frame : Input) : Prop := 1 ≤ frame.msg.width ∧ 1 ≤ frame.msg.height

theorem letterboxError_eq_none_iff {image : Mat Pixel} (hw : 1 ≤ image.cols)
    (hh : 1 ≤ image.rows) :
    letterboxError image = none ↔
      image.cols ≤ 640 * image.rows ∧ image.rows ≤ 640 * image.cols := by
  have hfits := letterbox_fits hw hh
  have hwithin : (letterbox image.cols image.rows).roi.Within
      (⟨inputH, inputW, fun _ _ => grey⟩ : Mat Pixel) :=
    ⟨hfits.x.pad_nonneg, hfits.nonneg.1, hfits.x.inside, hfits.y.pad_nonneg, hfits.nonneg.2,
      hfits.y.inside⟩
  rw [← letterbox_nonempty_iff hw hh, letterboxError, if_neg (not_not.mpr hwithin)]
  constructor
  · intro h
    by_contra hpixels
    have hempty : (letterbox image.cols image.rows).scaledW ≤ 0 ∨
        (letterbox image.cols image.rows).scaledH ≤ 0 := by omega
    rw [if_pos hempty] at h
    cases h
  · rintro ⟨hpx, hpy⟩
    exact if_neg (by omega)

/-- On a canvas all detections are drawn. -/
theorem overlayDrawings_ok (hmeet : Intersects X.meet)
    (hsort : Selection.Sorts Detection.score (X.sort scoreGt))
    (out : Tensor classCount anchorCount) (msg : Message) {s : ℚ} {canvas : Mat Pixel}
    (h : overlayCanvas P X msg.view = .ok (s, canvas)) :
    ∃ ds, overlayDrawings P X msg.view (detectionsOf P X out msg) = .ok (canvas, ds) := by
  have hsane : Sane P msg (detectionsOf P X out msg) := detectionsOf_sane hmeet hsort out msg
  have hall : ∀ d ∈ detectionsOf P X out msg,
      ∃ ds, (className d.classId).map (drawings s d) = some ds := by
    intro d hd
    obtain ⟨name, hname⟩ := className_of_lt (hsane.classId d hd)
    rw [hname]
    exact ⟨_, rfl⟩
  obtain ⟨dss, hdss⟩ := mapM_isSome hall
  refine ⟨dss.flatten, ?_⟩
  rw [overlayDrawings, h]
  simp only [hdss]

/-- The report breaks off only in the overlay. -/
theorem report_fault_iff (hmeet : Intersects X.meet)
    (hsort : Selection.Sorts Detection.score (X.sort scoreGt))
    (out : Tensor classCount anchorCount) (frame : Input) :
    (report P X out frame).2 = none ↔
      (frame.subscribed = true → ∃ canvas, overlayCanvas P X frame.msg.view = .ok canvas) := by
  obtain ⟨msg, subscribed, calls⟩ := frame
  have hsane : Sane P msg (detectionsOf P X out msg) := detectionsOf_sane hmeet hsort out msg
  obtain ⟨array, harray⟩ : ∃ array,
      publishDetections msg.header (detectionsOf P X out msg) = some array :=
    publishDetections_isSome hsane.classId
  rw [report]
  simp only [harray]
  cases subscribed with
  | false => exact ⟨fun _ h => Bool.noConfusion h, fun _ => rfl⟩
  | true =>
      rw [publishOverlay, if_pos rfl]
      cases hcanvas : overlayCanvas P X msg.view with
      | error f => simp [overlayDrawings, hcanvas]
      | ok canvas =>
          obtain ⟨ds, hds⟩ := overlayDrawings_ok hmeet hsort out msg hcanvas
          simp [hds]

theorem process_fault_iff (hmeet : Intersects X.meet)
    (hsort : Selection.Sorts Detection.score (X.sort scoreGt)) (m : Memory) {frame : Input}
    (hpixels : frame.HasPixels) :
    (process P X m frame).fault = none ↔ Survives P frame := by
  have hletterbox : letterboxError frame.msg.view = none ↔ _ :=
    letterboxError_eq_none_iff hpixels.1 hpixels.2
  have hoverlay : (∃ canvas, overlayCanvas P X frame.msg.view = .ok canvas) ↔ _ :=
    overlayCanvas_ok_iff frame.msg.view
  rw [process, preprocess_eq]
  cases herror : letterboxError frame.msg.view with
  | some e =>
      rw [herror] at hletterbox
      constructor
      · intro h
        cases h
      · intro h
        cases hletterbox.mpr h.letterbox
  | none =>
      refine (report_fault_iff hmeet hsort _ frame).trans ⟨fun h => ?_, fun h hlooks => ?_⟩
      · exact ⟨hletterbox.mp herror, fun hlooks => hoverlay.mp (h hlooks)⟩
      · exact hoverlay.mpr (h.overlay hlooks)

/-- An overlay of more than 320 pixels is no second way to fail. -/
theorem Survives.of_wide (h : 320 < P.overlayWidth) {frame : Input} (hpixels : frame.HasPixels) :
    Survives P frame ↔
      frame.msg.width ≤ 640 * frame.msg.height ∧ frame.msg.height ≤ 640 * frame.msg.width := by
  refine ⟨fun hs => hs.letterbox, fun hratio => ⟨hratio, fun _ _ => ?_⟩⟩
  have hrows : (1 : ℤ) ≤ frame.msg.height := by exact_mod_cast hpixels.2
  have hcols : (frame.msg.width : ℤ) ≤ 640 * frame.msg.height := by exact_mod_cast hratio.1
  calc (frame.msg.width : ℤ) ≤ 640 * frame.msg.height := hcols
    _ < 2 * P.overlayWidth * frame.msg.height := by nlinarith

/-- A rectangle inside of a canvas, up to a pixel.  A text that begins at a column of the canvas or
just behind the last one, on a row from 12 on and six rows above the lower edge; on a canvas too low
for both it is row 12, which may be below the canvas. -/
def Inside (canvas : Mat Pixel) : Drawing → Prop
  | .rectangle r _ _ => 0 ≤ r.x ∧ 0 ≤ r.width ∧ r.x + r.width ≤ canvas.cols + 1 ∧
      0 ≤ r.y ∧ 0 ≤ r.height ∧ r.y + r.height ≤ canvas.rows + 1
  | .putText _ x y _ _ _ => 0 ≤ x ∧ x ≤ canvas.cols ∧ 12 ≤ y ∧ y ≤ max 12 ((canvas.rows : ℤ) - 6)

/-- One axis of a box inside an axis of `n`, scaled into one that rounds to `m`. -/
theorem round_axis {x w n s : ℚ} {m : ℤ} (hs : 0 ≤ s) (hx : 0 ≤ x) (hw : 0 ≤ w) (hxw : x + w ≤ n)
    (hm : m = HalfEven.round (n * s)) :
    0 ≤ HalfEven.round (x * s) ∧ 0 ≤ HalfEven.round (w * s) ∧ HalfEven.round (x * s) ≤ m ∧
      HalfEven.round (x * s) + HalfEven.round (w * s) ≤ m + 1 := by
  have hxs : 0 ≤ x * s := mul_nonneg hx hs
  have hws : 0 ≤ w * s := mul_nonneg hw hs
  have hsum : x * s + w * s ≤ n * s := by
    rw [← add_mul]
    exact mul_le_mul_of_nonneg_right hxw hs
  have hle : x * s ≤ n * s := by linarith
  refine ⟨HalfEven.le_round (by exact_mod_cast hxs), HalfEven.le_round (by exact_mod_cast hws),
    by rw [hm]; exact HalfEven.round_mono hle, ?_⟩
  -- each of the three roundings moves by at most a half
  have hx' := (HalfEven.round_near (x * s)).1
  have hw' := (HalfEven.round_near (w * s)).1
  have hn' := (HalfEven.round_near (n * s)).2
  rw [← hm] at hn'
  have hlt : ((HalfEven.round (x * s) + HalfEven.round (w * s) : ℤ) : ℚ) < ((m + 2 : ℤ) : ℚ) := by
    push_cast
    linarith
  have hlt : HalfEven.round (x * s) + HalfEven.round (w * s) < m + 2 := by exact_mod_cast hlt
  omega

/-- The canvas is the image scaled, and rounded on each axis. -/
theorem overlayCanvas_scaled {image : Mat Pixel} {s : ℚ} {canvas : Mat Pixel}
    (h : overlayCanvas P X image = .ok (s, canvas)) :
    0 ≤ s ∧ (canvas.cols : ℤ) = HalfEven.round (image.cols * s) ∧
      (canvas.rows : ℤ) = HalfEven.round (image.rows * s) := by
  by_cases hshrinks : P.Shrinks image.cols
  · have hcols : (0 : ℚ) < image.cols := by
      have hpos : (0 : ℤ) < image.cols := hshrinks.1.trans hshrinks.2
      exact_mod_cast hpos
    rw [overlayCanvas_shrunk image hshrinks] at h
    split at h
    · cases h
    · rename_i hrows
      cases h
      have hwidth : (0 : ℚ) < P.overlayWidth := by exact_mod_cast hshrinks.1
      refine ⟨(div_pos hwidth hcols).le, ?_, ?_⟩
      · rw [mul_div_cancel₀ _ hcols.ne', HalfEven.round_intCast]
        exact Int.toNat_of_nonneg hshrinks.1.le
      · exact Int.toNat_of_nonneg (by omega)
  · rw [overlayCanvas_whole image hshrinks] at h
    cases h
    refine ⟨zero_le_one, ?_, ?_⟩
    · rw [mul_one]
      exact (HalfEven.round_intCast (K := ℚ) _).symm
    · rw [mul_one]
      exact (HalfEven.round_intCast (K := ℚ) _).symm

/-- **The overlay is drawn on the canvas**: every rectangle is inside up to a pixel, every label
begins where `Inside` says, whatever the network answers and however the image is shrunk. -/
theorem overlay_inside (hmeet : Intersects X.meet)
    (hsort : Selection.Sorts Detection.score (X.sort scoreGt))
    (out : Tensor classCount anchorCount) (msg : Message) {canvas : Mat Pixel} {ds : List Drawing}
    (h : overlayDrawings P X msg.view (detectionsOf P X out msg) = .ok (canvas, ds)) :
    ∀ d ∈ ds, Inside canvas d := by
  have hsane : Sane P msg (detectionsOf P X out msg) := detectionsOf_sane hmeet hsort out msg
  rw [overlayDrawings] at h
  cases hcanvas : overlayCanvas P X msg.view with
  | error f =>
      rw [hcanvas] at h
      cases h
  | ok sc =>
      obtain ⟨s, canvas'⟩ := sc
      obtain ⟨hs, hcols, hrows⟩ := overlayCanvas_scaled hcanvas
      rw [hcanvas] at h
      cases hdrawn : (detectionsOf P X out msg).mapM
          fun d => (className d.classId).map (drawings s d) with
      | none =>
          simp only [hdrawn] at h
          cases h
      | some dss =>
          simp only [hdrawn] at h
          cases h
          intro drawing hdrawing
          obtain ⟨lines, hlines, hdrawing⟩ := List.mem_flatten.mp hdrawing
          obtain ⟨d, hd, hname⟩ := mem_right (forall₂_mapM hdrawn) hlines
          obtain ⟨name, -, rfl⟩ := Option.map_eq_some_iff.mp hname
          obtain ⟨hw, hx, hright⟩ := hsane.width d hd
          obtain ⟨hh, hy, hbottom⟩ := hsane.height d hd
          obtain ⟨hx0, hw0, hxle, hxw⟩ := round_axis hs hx hw.le hright hcols
          obtain ⟨hy0, hh0, hyle, hyh⟩ := round_axis hs hy hh.le hbottom hrows
          have htext : ∀ color thickness, Inside canvas
              (.putText (label name d.score) (overlayRect s d.box).x
                (max ((overlayRect s d.box).y - 6) 12) (55 / 100) color thickness) := by
            intro color thickness
            have hy6 : HalfEven.round (d.box.y * s) - 6 ≤ (canvas.rows : ℤ) - 6 := by omega
            refine ⟨hx0, hxle, le_max_right _ _, ?_⟩
            rw [max_comm]
            exact max_le_max le_rfl hy6
          rcases List.mem_cons.mp hdrawing with rfl | hdrawing
          · exact ⟨hx0, hw0, hxw, hy0, hh0, hyh⟩
          · rcases List.mem_cons.mp hdrawing with rfl | hdrawing
            · exact htext _ _
            · obtain rfl := List.mem_singleton.mp hdrawing
              exact htext _ _

/-- Whatever is detected is drawn. -/
theorem overlayDrawings_ne_nil {image canvas : Mat Pixel} {dets : List Detection}
    {ds : List Drawing} (h : overlayDrawings P X image dets = .ok (canvas, ds))
    (hdets : dets ≠ []) : ds ≠ [] := by
  rw [overlayDrawings] at h
  cases hcanvas : overlayCanvas P X image with
  | error f =>
      rw [hcanvas] at h
      cases h
  | ok sc =>
      rw [hcanvas] at h
      cases hdrawn : dets.mapM fun d => (className d.classId).map (drawings sc.1 d) with
      | none =>
          simp only [hdrawn] at h
          cases h
      | some dss =>
          simp only [hdrawn] at h
          cases h
          obtain ⟨d, dets, rfl⟩ := List.exists_cons_of_ne_nil hdets
          cases forall₂_mapM hdrawn with
          | cons hd _ =>
              obtain ⟨name, -, rfl⟩ := Option.map_eq_some_iff.mp hd
              simp [drawings]

theorem overlay_inside_flat : ∃ canvas ds,
    overlayDrawings {} brightPlatform (flat 1 true).view
        (detectionsOf {} brightPlatform (uniform (middle true)) (flat 1 true)) = .ok (canvas, ds) ∧
      ds ≠ [] ∧ ∀ d ∈ ds, Inside canvas d := by
  obtain ⟨⟨s, canvas⟩, hcanvas⟩ :=
    (overlayCanvas_ok_iff (P := {}) (X := brightPlatform) (flat 1 true).view).mpr (by decide)
  obtain ⟨ds, hds⟩ := overlayDrawings_ok Rect.meet_intersects stableSort_isSort
    (uniform (middle true)) (flat 1 true) hcanvas
  refine ⟨canvas, ds, hds, ?_, overlay_inside Rect.meet_intersects stableSort_isSort
    (uniform (middle true)) (flat 1 true) hds⟩
  exact overlayDrawings_ne_nil hds (detectionsOf_ne_nil Rect.meet_intersects stableSort_isSort
    (middle_qualifies 1 true ⟨0, by decide⟩))

end JetsonPerception.Detector
