/-
# YOLOv8 postprocessing

`decode_yolov8` and `nms` of `postprocess.cpp`, in exact arithmetic, and the law that the
score threshold commutes with the two of them.

The tensor is planar: channel `c` of anchor `i` stands at `c * num_anchors + i`, and its type
keeps the size that makes every such read a read inside it.  Two things are not the
repository's own and are parameters: `cv::Rect2f`'s operator `&`, called `meet` here, and
`std::sort`, which takes the comparator.
-/
import JetsonPerception.Lib.Selection
import Mathlib.Algebra.Order.Field.Rat
import Mathlib.Tactic.NormNum
import Mathlib.Tactic.Ring

namespace JetsonPerception.Detector

/-! ## Boxes -/

/-- `cv::Rect2f`. -/
structure Rect where
  x : ℚ
  y : ℚ
  width : ℚ
  height : ℚ
  deriving DecidableEq

def Rect.area (r : Rect) : ℚ := r.width * r.height

def Rect.right (r : Rect) : ℚ := r.x + r.width

def Rect.bottom (r : Rect) : ℚ := r.y + r.height

/-- The two rectangles share a positive area. -/
def Rect.Overlaps (a b : Rect) : Prop :=
  max a.x b.x < min a.right b.right ∧ max a.y b.y < min a.bottom b.bottom

instance (a b : Rect) : Decidable (a.Overlaps b) :=
  inferInstanceAs (Decidable (_ ∧ _))

/-- The rectangle that two overlapping rectangles share. -/
def Rect.common (a b : Rect) : Rect where
  x := max a.x b.x
  y := max a.y b.y
  width := min a.right b.right - max a.x b.x
  height := min a.bottom b.bottom - max a.y b.y

/-- What OpenCV documents of `&`: the intersection, and the zero rectangle when that is
empty. -/
structure Intersects (meet : Rect → Rect → Rect) : Prop where
  overlap : ∀ a b : Rect, a.Overlaps b → meet a b = a.common b
  empty : ∀ a b : Rect, ¬ a.Overlaps b → meet a b = ⟨0, 0, 0, 0⟩

/-- An `&` that does so. -/
def Rect.meet (a b : Rect) : Rect := if a.Overlaps b then a.common b else ⟨0, 0, 0, 0⟩

theorem Rect.meet_intersects : Intersects Rect.meet :=
  ⟨fun _ _ h => if_pos h, fun _ _ h => if_neg h⟩

structure Detection where
  box : Rect
  score : ℚ
  classId : ℤ
  deriving DecidableEq

/-! ## Decoding -/

/-- The output of the network: four box channels, then one for each class. -/
structure Tensor (numClasses numAnchors : ℕ) where
  data : Array ℚ
  size_eq : data.size = (4 + numClasses) * numAnchors

variable {numClasses numAnchors : ℕ}

/-- `out[channel * num_anchors + i]`. -/
def Tensor.read (out : Tensor numClasses numAnchors) (channel : Fin (4 + numClasses))
    (i : Fin numAnchors) : ℚ :=
  have hlt : channel * numAnchors + i < out.data.size := by
    rw [out.size_eq]
    calc channel * numAnchors + i < channel * numAnchors + numAnchors := by omega
      _ = (channel + 1) * numAnchors := by ring
      _ ≤ (4 + numClasses) * numAnchors := Nat.mul_le_mul_right _ channel.isLt
  out.data[channel * numAnchors + i]

/-- The letterbox the tensor was computed under, and the size of the image. -/
structure Geometry where
  scale : ℚ
  padX : ℤ
  padY : ℤ
  imgW : ℤ
  imgH : ℤ
  deriving DecidableEq

/-- One class of the arg-max loop; the state is `(best, best_score)`. -/
def better (s : Fin numClasses → ℚ) (st : ℤ × ℚ) (c : Fin numClasses) : ℤ × ℚ :=
  if s c > st.2 then ((c : ℤ), s c) else st

/-- The arg-max loop of one anchor. -/
def bestClass (out : Tensor numClasses numAnchors) (scoreThreshold : ℚ)
    (i : Fin numAnchors) : ℤ × ℚ :=
  (List.finRange numClasses).foldl (better fun c => out.read (Fin.natAdd 4 c) i)
    (-1, scoreThreshold)

/-- The letterbox undone, before the box is clamped. -/
def unletterbox (g : Geometry) (cx cy w h : ℚ) : Rect where
  x := (cx - w / 2 - g.padX) / g.scale
  y := (cy - h / 2 - g.padY) / g.scale
  width := w / g.scale
  height := h / g.scale

/-- The box channels of an anchor, in image coordinates. -/
def anchorBox (out : Tensor numClasses numAnchors) (g : Geometry) (i : Fin numAnchors) : Rect :=
  unletterbox g (out.read (Fin.castAdd numClasses 0) i) (out.read (Fin.castAdd numClasses 1) i)
    (out.read (Fin.castAdd numClasses 2) i) (out.read (Fin.castAdd numClasses 3) i)

variable (meet : Rect → Rect → Rect)

/-- One anchor: `continue` is `none`, `push_back` is `some`. -/
def decodeAnchor (out : Tensor numClasses numAnchors) (scoreThreshold : ℚ) (g : Geometry)
    (i : Fin numAnchors) : Option Detection :=
  let (best, bestScore) := bestClass out scoreThreshold i
  if best < 0 then none
  else
    let box := meet (anchorBox out g i) ⟨0, 0, g.imgW, g.imgH⟩
    if box.area > 0 then some ⟨box, bestScore, best⟩ else none

def decodeYolov8 (out : Tensor numClasses numAnchors) (scoreThreshold : ℚ) (g : Geometry) :
    List Detection :=
  (List.finRange numAnchors).filterMap (decodeAnchor meet out scoreThreshold g)

/-! ## Non-maximum suppression -/

/-- The comparator of the sort. -/
def scoreGt (a b : Detection) : Bool := decide (a.score > b.score)

/-- One `i` of the outer loop; the state is `(kept, removed)`. -/
def nmsStep (iouThreshold : ℚ) (dets : List Detection) :
    List Detection × Vector Bool dets.length → Fin dets.length →
    List Detection × Vector Bool dets.length :=
  fun (kept, removed) i =>
    if removed[i] then (kept, removed)
    else (kept ++ [dets[i]],
      ((List.finRange dets.length).drop (i + 1)).foldl
        (fun removed (j : Fin dets.length) =>
          if removed[j] || dets[j].classId != dets[i].classId then removed
          else
            let inter := (meet dets[i].box dets[j].box).area
            let uni := dets[i].box.area + dets[j].box.area - inter
            if uni > 0 ∧ inter / uni > iouThreshold then removed.set j true else removed)
        removed)

def nms (sort : (Detection → Detection → Bool) → List Detection → List Detection)
    (iouThreshold : ℚ) (dets : List Detection) : List Detection :=
  let dets := sort scoreGt dets
  ((List.finRange dets.length).foldl (nmsStep meet iouThreshold dets)
    ([], Vector.replicate dets.length false)).1

/-- `a`, when it is kept, suppresses `b`. -/
def suppresses (iouThreshold : ℚ) (a b : Detection) : Bool :=
  let inter := (meet a.box b.box).area
  let uni := a.box.area + b.box.area - inter
  b.classId == a.classId && decide (uni > 0 ∧ inter / uni > iouThreshold)

theorem nmsStep_eq (iouThreshold : ℚ) (dets : List Detection) :
    nmsStep meet iouThreshold dets =
      Selection.sweepStep (suppresses meet iouThreshold) dets := by
  funext ⟨kept, removed⟩ i
  simp only [nmsStep, Selection.sweepStep]
  congr 3
  funext removed j
  cases hr : removed[j] with
  | true => rfl
  | false =>
      cases hc : dets[j].classId == dets[i].classId with
      | false => simp only [bne, hc, suppresses]; rfl
      | true => simp only [bne, hc, suppresses, Bool.true_and, decide_eq_true_eq]; rfl

/-- Non-maximum suppression is the greedy selection of the sorted list. -/
theorem nms_eq_greedy {sort : (Detection → Detection → Bool) → List Detection → List Detection}
    (iouThreshold : ℚ) (dets : List Detection) :
    nms meet sort iouThreshold dets =
      Selection.greedy (suppresses meet iouThreshold) (sort scoreGt dets) := by
  rw [← Selection.sweep_eq_greedy, nms, nmsStep_eq]
  rfl

/-! ## Raising the score threshold -/

variable {meet}

/-- The states of two arg-max loops, started at a lower threshold and at `t`: either nothing
above `t` has been met, or the loops agree. -/
def Raised (t : ℚ) (lower upper : ℤ × ℚ) : Prop :=
  (lower.2 ≤ t ∧ upper = (-1, t)) ∨ (t < lower.2 ∧ 0 ≤ lower.1 ∧ upper = lower)

theorem Raised.step {t : ℚ} {lower upper : ℤ × ℚ} (h : Raised t lower upper)
    (s : Fin numClasses → ℚ) (c : Fin numClasses) :
    Raised t (better s lower c) (better s upper c) := by
  rcases h with ⟨hle, rfl⟩ | ⟨hlt, hpos, rfl⟩
  · by_cases hs : t < s c
    · have hs' : lower.2 < s c := lt_of_le_of_lt hle hs
      exact .inr (by simp [better, hs, hs'])
    · left
      by_cases hs' : lower.2 < s c
      · simpa [better, hs, hs'] using not_lt.mp hs
      · simpa [better, hs, hs'] using hle
  · by_cases hs : upper.2 < s c
    · exact .inr (by simpa [better, hs] using lt_trans hlt hs)
    · exact .inr (by simpa [better, hs] using ⟨hlt, hpos⟩)

theorem bestClass_raised (out : Tensor numClasses numAnchors) {t₁ t₂ : ℚ} (h : t₁ ≤ t₂)
    (i : Fin numAnchors) : Raised t₂ (bestClass out t₁ i) (bestClass out t₂ i) :=
  List.foldl_rel (r := Raised t₂) (.inl ⟨h, rfl⟩) fun c _ _ _ hr => hr.step _ c

/-- Decoding an anchor at a higher threshold filters what it gives at the lower one. -/
theorem decodeAnchor_raised (out : Tensor numClasses numAnchors) {t₁ t₂ : ℚ} (h : t₁ ≤ t₂)
    (g : Geometry) (i : Fin numAnchors) :
    decodeAnchor meet out t₂ g i =
      (decodeAnchor meet out t₁ g i).filter fun d => t₂ < d.score := by
  rcases bestClass_raised out h i with ⟨hle, hup⟩ | ⟨hlt, hpos, hup⟩
  · have hnone : decodeAnchor meet out t₂ g i = none := by
      rw [decodeAnchor, hup]
      rfl
    rw [hnone, decodeAnchor]
    dsimp only
    split
    · rfl
    · split
      · exact (Option.filter_some_neg (by simpa using hle)).symm
      · rfl
  · rw [decodeAnchor, decodeAnchor, hup]
    dsimp only
    split
    · rfl
    · split
      · exact (Option.filter_some_pos (by simpa using hlt)).symm
      · rfl

/-- Decoding the whole tensor at a higher threshold filters what it gives at the lower one. -/
theorem decodeYolov8_raised (out : Tensor numClasses numAnchors) {t₁ t₂ : ℚ} (h : t₁ ≤ t₂)
    (g : Geometry) : decodeYolov8 meet out t₂ g =
      (decodeYolov8 meet out t₁ g).filter fun d => t₂ < d.score := by
  rw [decodeYolov8, decodeYolov8, List.filter_filterMap]
  exact congrArg (fun f => (List.finRange numAnchors).filterMap f)
    (funext fun i => decodeAnchor_raised out h g i)

variable {sort : (Detection → Detection → Bool) → List Detection → List Detection}

/-- Suppression lets a filter by score through: it only ever looks at what scored higher. -/
theorem nms_filter (hsort : Selection.SortsStably Detection.score (sort scoreGt))
    (iouThreshold t : ℚ) (dets : List Detection) :
    nms meet sort iouThreshold (dets.filter fun d => t < d.score) =
      (nms meet sort iouThreshold dets).filter fun d => t < d.score := by
  rw [nms_eq_greedy, nms_eq_greedy, hsort.filter]
  conv_rhs => rw [(hsort.descending dets).split t]
  refine (Selection.greedy_filter_append (fun d hd => ?_) fun d hd => ?_).symm
  · exact (List.mem_filter.mp hd).2
  · simpa using (List.mem_filter.mp hd).2

/-- A sort that keeps the order of what the comparator does not tell apart. -/
def stableSort (lt : Detection → Detection → Bool) (dets : List Detection) : List Detection :=
  dets.mergeSort fun a b => !lt b a

theorem stableSort_sorts : Selection.SortsStably Detection.score (stableSort scoreGt) := by
  have hle : (fun a b : Detection => !scoreGt b a) = fun a b => decide (b.score ≤ a.score) := by
    funext a b
    simp [scoreGt, ← decide_not]
  have hsort : stableSort scoreGt =
      fun dets => dets.mergeSort fun a b => decide (b.score ≤ a.score) := by
    funext dets
    rw [stableSort, hle]
  rw [hsort]
  exact Selection.sortsStably_mergeSort

/-- **The score threshold commutes with the whole postprocessing.** -/
theorem postprocess_threshold (hsort : Selection.SortsStably Detection.score (sort scoreGt))
    (out : Tensor numClasses numAnchors) (g : Geometry) (iouThreshold : ℚ) {t₁ t₂ : ℚ}
    (h : t₁ ≤ t₂) :
    nms meet sort iouThreshold (decodeYolov8 meet out t₂ g) =
      (nms meet sort iouThreshold (decodeYolov8 meet out t₁ g)).filter
        fun d => ¬ d.score ≤ t₂ := by
  rw [decodeYolov8_raised out h g, nms_filter hsort]
  simp only [not_le]

/-- Two anchors that see the same box of 40 × 40, at scores 9/10 and 6/10. -/
def twice : Tensor 1 2 :=
  ⟨#[100, 100, 100, 100, 40, 40, 40, 40, 9 / 10, 6 / 10], rfl⟩

theorem postprocess_threshold_twice :
    nms Rect.meet stableSort (1 / 2) (decodeYolov8 Rect.meet twice (7 / 10) ⟨1, 0, 0, 640, 640⟩) =
      (nms Rect.meet stableSort (1 / 2)
        (decodeYolov8 Rect.meet twice (1 / 2) ⟨1, 0, 0, 640, 640⟩)).filter
        fun d => ¬ d.score ≤ 7 / 10 :=
  postprocess_threshold stableSort_sorts twice ⟨1, 0, 0, 640, 640⟩ (1 / 2) (by norm_num)

end JetsonPerception.Detector
