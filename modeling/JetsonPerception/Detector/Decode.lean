/-
# What `decode_yolov8` returns

The specification of the decoder, anchor by anchor: the largest class score and the smallest
class that attains it, the threshold, the letterbox undone, and the part of the box inside the
image.

The arg-max loop starts at the threshold and at no class, so "nothing above the threshold" and
"the largest score" come out of one loop; `Leads` is what it knows half way.

The indices are computed in `int`.  `decodeYolov8?` is the decoder with every one of them checked,
for overflow and against the size of the tensor; it comes through, and meets the specification,
exactly on the tensors whose last element `int` can index (`decode_decodes_iff`).
-/
import JetsonPerception.Detector.Postprocess

namespace JetsonPerception.Detector

variable {numClasses numAnchors : ℕ}

/-! ## The specification -/

/-- The score of a class at an anchor. -/
def Tensor.score (out : Tensor numClasses numAnchors) (i : Fin numAnchors) (c : Fin numClasses) :
    ℚ := out.read (Fin.natAdd 4 c) i

/-- The image as a rectangle. -/
def Geometry.image (g : Geometry) : Rect := ⟨0, 0, g.imgW, g.imgH⟩

/-- The smallest class that attains the largest score of the anchor. -/
structure IsTop (out : Tensor numClasses numAnchors) (i : Fin numAnchors) (c : Fin numClasses) :
    Prop where
  largest : ∀ k, out.score i k ≤ out.score i c
  smallest : ∀ k, out.score i k = out.score i c → c ≤ k

/-- The largest score exceeds the threshold, and the box meets the image in a positive area. -/
def Qualifies (out : Tensor numClasses numAnchors) (scoreThreshold : ℚ) (g : Geometry)
    (i : Fin numAnchors) : Prop :=
  (∃ c, IsTop out i c ∧ scoreThreshold < out.score i c) ∧ (anchorBox out g i).Overlaps g.image

/-- The detection of an anchor. -/
structure Describes (out : Tensor numClasses numAnchors) (g : Geometry) (i : Fin numAnchors)
    (d : Detection) : Prop where
  top : ∃ c : Fin numClasses, IsTop out i c ∧ d.classId = c ∧ d.score = out.score i c
  box : d.box = (anchorBox out g i).common g.image
  left : 0 ≤ d.box.x
  above : 0 ≤ d.box.y
  right : d.box.right ≤ g.imgW
  bottom : d.box.bottom ≤ g.imgH
  area : 0 < d.box.area

/-- There is one detection for each anchor that qualifies, in increasing order. -/
def Decodes (out : Tensor numClasses numAnchors) (scoreThreshold : ℚ) (g : Geometry)
    (dets : List Detection) : Prop :=
  ∃ is : List (Fin numAnchors), is.Pairwise (· < ·) ∧
    (∀ i, i ∈ is ↔ Qualifies out scoreThreshold g i) ∧ List.Forall₂ (Describes out g) is dets

/-! ## The decoder with checked indices -/

/-- `channel * num_anchors + i` in `int`: nothing where it overflows. -/
def index? (channel numAnchors i : ℕ) : Option ℕ :=
  if channel < 2 ^ 31 ∧ channel * numAnchors < 2 ^ 31 ∧ channel * numAnchors + i < 2 ^ 31 then
    some (channel * numAnchors + i)
  else none

/-- The element at such an index: nothing where there is none. -/
def Tensor.read? (out : Tensor numClasses numAnchors) (channel i : ℕ) : Option ℚ :=
  (index? channel numAnchors i).bind fun k => out.data[k]?

/-- The arg-max loop of one anchor. -/
def bestClass? (out : Tensor numClasses numAnchors) (scoreThreshold : ℚ) (i : Fin numAnchors) :
    Option (ℤ × ℚ) :=
  (List.finRange numClasses).foldlM
    (fun st (c : Fin numClasses) =>
      (out.read? (4 + c) i).map fun s => if s > st.2 then ((c : ℤ), s) else st)
    (-1, scoreThreshold)

/-- One anchor. -/
def decodeAnchor? (meet : Rect → Rect → Rect) (out : Tensor numClasses numAnchors)
    (scoreThreshold : ℚ) (g : Geometry) (i : Fin numAnchors) : Option (Option Detection) := do
  let (best, bestScore) ← bestClass? out scoreThreshold i
  if best < 0 then return none
  let cx ← out.read? 0 i
  let cy ← out.read? 1 i
  let w ← out.read? 2 i
  let h ← out.read? 3 i
  let box := meet (unletterbox g cx cy w h) ⟨0, 0, g.imgW, g.imgH⟩
  return if box.area > 0 then some ⟨box, bestScore, best⟩ else none

/-- `decode_yolov8`, or nothing if an index overflows or lies outside of the tensor. -/
def decodeYolov8? (meet : Rect → Rect → Rect) (out : Tensor numClasses numAnchors)
    (scoreThreshold : ℚ) (g : Geometry) : Option (List Detection) :=
  (List.finRange numAnchors).foldlM
    (fun raw i => (decodeAnchor? meet out scoreThreshold g i).map fun d => raw ++ d.toList) []

/-! ## The arg-max -/

/-- What the loop knows after the classes `pre`. -/
def Leads (s : Fin numClasses → ℚ) (t : ℚ) (pre : List (Fin numClasses)) (st : ℤ × ℚ) : Prop :=
  ((∀ k ∈ pre, s k ≤ t) ∧ st = (-1, t)) ∨
    ∃ c ∈ pre, t < s c ∧ (∀ k ∈ pre, s k ≤ s c) ∧ (∀ k ∈ pre, s k = s c → c ≤ k) ∧
      st = ((c : ℤ), s c)

theorem Leads.step {s : Fin numClasses → ℚ} {t : ℚ} {pre : List (Fin numClasses)} {st : ℤ × ℚ}
    (h : Leads s t pre st) {a : Fin numClasses} (ha : ∀ k ∈ pre, k < a) :
    Leads s t (pre ++ [a]) (better s st a) := by
  rcases h with ⟨hle, rfl⟩ | ⟨c, hc, ht, hmax, hmin, rfl⟩
  · by_cases hs : t < s a
    · right
      refine ⟨a, by simp, hs, ?_, ?_, if_pos hs⟩
      · intro k hk
        rcases List.mem_append.mp hk with hk | hk
        · exact (hle k hk).trans hs.le
        · rw [List.mem_singleton.mp hk]
      · intro k hk heq
        rcases List.mem_append.mp hk with hk | hk
        · exact absurd (heq ▸ hle k hk) (not_le.mpr hs)
        · rw [List.mem_singleton.mp hk]
    · left
      refine ⟨fun k hk => ?_, if_neg hs⟩
      rcases List.mem_append.mp hk with hk | hk
      · exact hle k hk
      · rw [List.mem_singleton.mp hk]
        exact not_lt.mp hs
  · right
    by_cases hs : s c < s a
    · refine ⟨a, by simp, ht.trans hs, ?_, ?_, if_pos hs⟩
      · intro k hk
        rcases List.mem_append.mp hk with hk | hk
        · exact (hmax k hk).trans hs.le
        · rw [List.mem_singleton.mp hk]
      · intro k hk heq
        rcases List.mem_append.mp hk with hk | hk
        · exact absurd (heq ▸ hmax k hk) (not_le.mpr hs)
        · rw [List.mem_singleton.mp hk]
    · -- a later class that only equals the score does not take over
      refine ⟨c, List.mem_append_left _ hc, ht, ?_, ?_, if_neg hs⟩
      · intro k hk
        rcases List.mem_append.mp hk with hk | hk
        · exact hmax k hk
        · rw [List.mem_singleton.mp hk]
          exact not_lt.mp hs
      · intro k hk heq
        rcases List.mem_append.mp hk with hk | hk
        · exact hmin k hk heq
        · rw [List.mem_singleton.mp hk]
          exact (ha c hc).le

/-- The classes come in increasing order. -/
theorem lt_of_finRange {n : ℕ} {pre post : List (Fin n)} {a : Fin n}
    (h : List.finRange n = pre ++ a :: post) : ∀ k ∈ pre, k < a := by
  have hsorted := List.pairwise_lt_finRange n
  rw [h] at hsorted
  intro k hk
  exact (List.pairwise_append.mp hsorted).2.2 k hk a List.mem_cons_self

variable (out : Tensor numClasses numAnchors) (t : ℚ) (g : Geometry) (i : Fin numAnchors)

/-- The loop finds the top class, or that nothing exceeds the threshold. -/
theorem bestClass_spec :
    ((∀ c, out.score i c ≤ t) ∧ bestClass out t i = (-1, t)) ∨
      ∃ c, IsTop out i c ∧ t < out.score i c ∧
        bestClass out t i = ((c : ℤ), out.score i c) := by
  have h : Leads (out.score i) t (List.finRange numClasses) (bestClass out t i) :=
    Selection.foldl_inv (Leads (out.score i) t) (.inl ⟨nofun, rfl⟩)
      fun pre a post st hl h => h.step (lt_of_finRange hl)
  rcases h with ⟨hle, heq⟩ | ⟨c, -, ht, hmax, hmin, heq⟩
  · exact .inl ⟨fun c => hle c (List.mem_finRange c), heq⟩
  · right
    exact ⟨c, ⟨fun k => hmax k (List.mem_finRange k), fun k => hmin k (List.mem_finRange k)⟩, ht,
      heq⟩

/-! ## One anchor -/

variable {meet : Rect → Rect → Rect}

/-- Clamping keeps a box exactly when it overlaps the image. -/
theorem Intersects.area_pos_iff (h : Intersects meet) (a b : Rect) :
    0 < (meet a b).area ↔ a.Overlaps b := by
  constructor
  · intro harea
    by_contra hnot
    rw [h.empty a b hnot] at harea
    exact absurd harea (by simp [Rect.area])
  · intro hover
    rw [h.overlap a b hover]
    exact mul_pos (sub_pos.mpr hover.1) (sub_pos.mpr hover.2)

variable {out t g i}

theorem decodeAnchor_of_qualifies (hmeet : Intersects meet) (h : Qualifies out t g i) :
    ∃ d, decodeAnchor meet out t g i = some d ∧ Describes out g i d := by
  obtain ⟨⟨c, htop, hc⟩, hover⟩ := h
  rcases bestClass_spec out t i with ⟨hle, -⟩ | ⟨c', htop', hc', hbest⟩
  · exact absurd (hle c) (not_le.mpr hc)
  · have harea := (hmeet.area_pos_iff _ _).mpr hover
    have hbox : meet (anchorBox out g i) g.image = (anchorBox out g i).common g.image :=
      hmeet.overlap _ _ hover
    refine ⟨⟨meet (anchorBox out g i) g.image, out.score i c', c'⟩, ?_, ?_⟩
    · rw [decodeAnchor, hbest]
      have hpos : ¬ (c' : ℤ) < 0 := by omega
      simp only [hpos, if_false]
      exact if_pos harea
    · constructor
      case top => exact ⟨c', htop', rfl, rfl⟩
      case box => exact hbox
      case area => exact harea
      all_goals rw [hbox]
      case left => exact le_max_right _ _
      case above => exact le_max_right _ _
      case right =>
          show max _ _ + (min _ (0 + (g.imgW : ℚ)) - max _ _) ≤ (g.imgW : ℚ)
          rw [add_sub_cancel, zero_add]
          exact min_le_right _ _
      case bottom =>
          show max _ _ + (min _ (0 + (g.imgH : ℚ)) - max _ _) ≤ (g.imgH : ℚ)
          rw [add_sub_cancel, zero_add]
          exact min_le_right _ _

theorem decodeAnchor_of_not_qualifies (hmeet : Intersects meet) (h : ¬ Qualifies out t g i) :
    decodeAnchor meet out t g i = none := by
  rcases bestClass_spec out t i with ⟨-, hbest⟩ | ⟨c, htop, hc, hbest⟩
  · rw [decodeAnchor, hbest]
    rfl
  · have hover : ¬ (anchorBox out g i).Overlaps g.image := fun hover => h ⟨⟨c, htop, hc⟩, hover⟩
    have hpos : ¬ (c : ℤ) < 0 := by omega
    rw [decodeAnchor, hbest]
    simp only [hpos, if_false]
    exact if_neg fun harea => hover ((hmeet.area_pos_iff _ _).mp harea)

/-! ## The whole tensor -/

/-- The elements a `filterMap` keeps, beside what it makes of them. -/
theorem forall₂_filterMap {α β : Type} (f : α → Option β) (l : List α) :
    List.Forall₂ (fun a b => f a = some b) (l.filter fun a => (f a).isSome) (l.filterMap f) := by
  induction l with
  | nil => exact .nil
  | cons a l ih =>
      cases hf : f a with
      | none => simpa [List.filter_cons, List.filterMap_cons, hf] using ih
      | some b => simpa [List.filter_cons, List.filterMap_cons, hf] using ih

/-- What the loop returns meets the specification. -/
theorem decodes_decodeYolov8 (hmeet : Intersects meet) (out : Tensor numClasses numAnchors) (t : ℚ)
    (g : Geometry) : Decodes out t g (decodeYolov8 meet out t g) := by
  refine ⟨_, (List.pairwise_lt_finRange numAnchors).filter _, fun i => ?_,
    (forall₂_filterMap (decodeAnchor meet out t g) _).imp fun i d hd => ?_⟩
  · rw [List.mem_filter]
    constructor
    · rintro ⟨-, hsome⟩
      by_contra hnot
      rw [decodeAnchor_of_not_qualifies hmeet hnot] at hsome
      exact Bool.noConfusion hsome
    · intro hq
      obtain ⟨d, hd, -⟩ := decodeAnchor_of_qualifies hmeet hq
      exact ⟨List.mem_finRange i, by rw [hd]; rfl⟩
  · by_cases hq : Qualifies out t g i
    · obtain ⟨d', hd', hdesc⟩ := decodeAnchor_of_qualifies hmeet hq
      rw [hd] at hd'
      exact Option.some.inj hd' ▸ hdesc
    · rw [decodeAnchor_of_not_qualifies hmeet hq] at hd
      cases hd

/-! ## The indices -/

section Checked

variable {σ α : Type} {f : σ → α → Option σ}

/-- A loop whose every step comes through. -/
theorem foldlM_of_some {h : σ → α → σ} : ∀ {l : List α}, (∀ s, ∀ a ∈ l, f s a = some (h s a)) →
    ∀ s, l.foldlM f s = some (l.foldl h s)
  | [], _, _ => rfl
  | a :: l, hf, s => by
      rw [List.foldlM_cons, hf s a List.mem_cons_self]
      exact foldlM_of_some (fun s b hb => hf s b (List.mem_cons_of_mem _ hb)) _

/-- A loop with a step that does not. -/
theorem foldlM_of_none {a : α} (hf : ∀ s, f s a = none) : ∀ {l : List α}, a ∈ l →
    ∀ s, l.foldlM f s = none
  | b :: l, ha, s => by
      rw [List.foldlM_cons]
      rcases List.mem_cons.mp ha with rfl | ha
      · rw [hf]
        rfl
      · cases f s b with
        | none => rfl
        | some s' => exact foldlM_of_none hf ha s'

end Checked

/-- The index of an element, and whether `int` has it. -/
theorem read?_eq (out : Tensor numClasses numAnchors) (channel : Fin (4 + numClasses))
    (i : Fin numAnchors) : out.read? channel i =
      if channel * numAnchors + i < 2 ^ 31 then some (out.read channel i) else none := by
  have hle : (channel : ℕ) ≤ channel * numAnchors := Nat.le_mul_of_pos_right _ i.pos
  have hsize : channel * numAnchors + i < out.data.size := by
    rw [out.size_eq]
    calc channel * numAnchors + i < channel * numAnchors + numAnchors := by omega
      _ = (channel + 1) * numAnchors := by ring
      _ ≤ (4 + numClasses) * numAnchors := Nat.mul_le_mul_right _ channel.isLt
  rw [Tensor.read?, index?]
  by_cases hfits : channel * numAnchors + i < 2 ^ 31
  · rw [if_pos ⟨by omega, by omega, hfits⟩, if_pos hfits]
    exact Array.getElem?_eq_getElem hsize
  · rw [if_neg fun h => hfits h.2.2, if_neg hfits]
    rfl

/-- The tensor is not larger than `int` can index, or has no scores to be read. -/
def Indexable (numClasses numAnchors : ℕ) : Prop :=
  numClasses = 0 ∨ (4 + numClasses) * numAnchors ≤ 2 ^ 31

theorem read?_of_indexable (out : Tensor numClasses numAnchors)
    (hfits : (4 + numClasses) * numAnchors ≤ 2 ^ 31) (channel : Fin (4 + numClasses))
    (i : Fin numAnchors) : out.read? channel i = some (out.read channel i) := by
  rw [read?_eq, if_pos]
  calc channel * numAnchors + i < channel * numAnchors + numAnchors := by omega
    _ = (channel + 1) * numAnchors := by ring
    _ ≤ (4 + numClasses) * numAnchors := Nat.mul_le_mul_right _ channel.isLt
    _ ≤ 2 ^ 31 := hfits

/-- The scores of an anchor are read for its every class. -/
theorem bestClass?_of_indexable (h : Indexable numClasses numAnchors)
    (out : Tensor numClasses numAnchors) (t : ℚ) (i : Fin numAnchors) :
    bestClass? out t i = some (bestClass out t i) := by
  rw [bestClass?, bestClass]
  refine foldlM_of_some (fun st c _ => ?_) _
  have hfits : (4 + numClasses) * numAnchors ≤ 2 ^ 31 := by
    rcases h with rfl | hfits
    · exact c.elim0
    · exact hfits
  have hread : out.read? (4 + c) i = some (out.read (Fin.natAdd 4 c) i) :=
    read?_of_indexable out hfits (Fin.natAdd 4 c) i
  rw [hread]
  rfl

theorem decodeAnchor?_of_indexable (h : Indexable numClasses numAnchors)
    (out : Tensor numClasses numAnchors) (t : ℚ) (g : Geometry) (i : Fin numAnchors) :
    decodeAnchor? meet out t g i = some (decodeAnchor meet out t g i) := by
  rw [decodeAnchor?, decodeAnchor, bestClass?_of_indexable h]
  rcases h with rfl | hfits
  · rfl
  · have h0 : out.read? 0 i = some (out.read (Fin.castAdd numClasses 0) i) :=
      read?_of_indexable out hfits (Fin.castAdd numClasses 0) i
    have h1 : out.read? 1 i = some (out.read (Fin.castAdd numClasses 1) i) :=
      read?_of_indexable out hfits (Fin.castAdd numClasses 1) i
    have h2 : out.read? 2 i = some (out.read (Fin.castAdd numClasses 2) i) :=
      read?_of_indexable out hfits (Fin.castAdd numClasses 2) i
    have h3 : out.read? 3 i = some (out.read (Fin.castAdd numClasses 3) i) :=
      read?_of_indexable out hfits (Fin.castAdd numClasses 3) i
    obtain ⟨best, bestScore⟩ := bestClass out t i
    by_cases hbest : best < 0
    · simp [hbest]
    · simp [hbest, h0, h1, h2, h3, anchorBox]

/-- **Where `int` can index the tensor, the checks do nothing.** -/
theorem decodeYolov8?_of_indexable (h : Indexable numClasses numAnchors)
    (out : Tensor numClasses numAnchors) (t : ℚ) (g : Geometry) :
    decodeYolov8? meet out t g = some (decodeYolov8 meet out t g) := by
  have hloop : ∀ (l : List (Fin numAnchors)) (raw : List Detection),
      l.foldl (fun raw i => raw ++ (decodeAnchor meet out t g i).toList) raw =
        raw ++ l.filterMap (decodeAnchor meet out t g) := by
    intro l
    induction l with
    | nil => simp
    | cons i l ih =>
        intro raw
        rw [List.foldl_cons, ih, List.filterMap_cons]
        cases decodeAnchor meet out t g i <;> simp
  refine (foldlM_of_some (h := fun raw i => raw ++ (decodeAnchor meet out t g i).toList)
    (fun raw i _ => ?_) _).trans (congrArg some (hloop _ _))
  rw [decodeAnchor?_of_indexable h]
  rfl

/-- Otherwise the score of the last class at the last anchor is out of reach, whatever the
scores are. -/
theorem decodeYolov8?_of_not_indexable (h : ¬ Indexable numClasses numAnchors)
    (out : Tensor numClasses numAnchors) (t : ℚ) (g : Geometry) :
    decodeYolov8? meet out t g = none := by
  obtain ⟨hclasses, hlarge⟩ := not_or.mp h
  obtain ⟨c, rfl⟩ : ∃ c, numClasses = c + 1 := Nat.exists_eq_succ_of_ne_zero hclasses
  obtain ⟨n, rfl⟩ : ∃ n, numAnchors = n + 1 := by
    refine Nat.exists_eq_succ_of_ne_zero ?_
    rintro rfl
    exact hlarge (by simp)
  have hread : out.read? (4 + (Fin.last c : ℕ)) (Fin.last n : ℕ) = none := by
    refine (read?_eq out (Fin.natAdd 4 (Fin.last c)) (Fin.last n)).trans (if_neg ?_)
    have hindex : (4 + (c + 1)) * (n + 1) = (4 + c) * (n + 1) + n + 1 := by ring
    rw [hindex] at hlarge
    simp only [Fin.val_natAdd, Fin.val_last]
    omega
  have hbest : bestClass? out t (Fin.last n) = none := by
    rw [bestClass?]
    refine foldlM_of_none (fun st => ?_) (List.mem_finRange (Fin.last c)) _
    rw [hread]
    rfl
  rw [decodeYolov8?]
  refine foldlM_of_none (fun raw => ?_) (List.mem_finRange (Fin.last n)) _
  rw [decodeAnchor?, hbest]
  rfl

/-- **`decode_yolov8` reads inside its tensor and meets its specification** exactly where `int` can
index the tensor. -/
theorem decode_decodes_iff (hmeet : Intersects meet) (out : Tensor numClasses numAnchors) (t : ℚ)
    (g : Geometry) : (∃ dets, decodeYolov8? meet out t g = some dets ∧ Decodes out t g dets) ↔
      numClasses = 0 ∨ (4 + numClasses) * numAnchors ≤ 2 ^ 31 := by
  constructor
  · rintro ⟨dets, hdets, -⟩
    by_contra hnot
    rw [decodeYolov8?_of_not_indexable hnot] at hdets
    cases hdets
  · intro h
    exact ⟨_, decodeYolov8?_of_indexable h out t g, decodes_decodeYolov8 hmeet out t g⟩

theorem decode_decodes_iff_twice : ∃ dets,
    decodeYolov8? Rect.meet twice (1 / 2) ⟨1, 0, 0, 640, 640⟩ = some dets ∧
      Decodes twice (1 / 2) ⟨1, 0, 0, 640, 640⟩ dets :=
  (decode_decodes_iff Rect.meet_intersects twice (1 / 2) ⟨1, 0, 0, 640, 640⟩).mpr
    (.inr (by norm_num))

/-- 80 classes and 26000000 anchors. -/
def oversized : Tensor 80 26000000 := ⟨Array.replicate _ 0, Array.size_replicate ..⟩

theorem decode_overflows : ¬ ∀ (numClasses numAnchors : ℕ) (out : Tensor numClasses numAnchors)
    (t : ℚ) (g : Geometry), ∃ dets, decodeYolov8? Rect.meet out t g = some dets ∧
      Decodes out t g dets := by
  intro hall
  obtain ⟨dets, hdets, -⟩ := hall 80 26000000 oversized (1 / 2) ⟨1, 0, 0, 640, 640⟩
  have hlarge : ¬ Indexable 80 26000000 := by
    rw [Indexable]
    norm_num
  rw [decodeYolov8?_of_not_indexable hlarge] at hdets
  cases hdets

end JetsonPerception.Detector
