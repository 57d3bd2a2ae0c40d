/-
# What `nms` returns, and when its input's order does not matter

`nms` marks forward through a ranked list.  Looking back, it keeps the detections that no kept
one before them covers: same class, intersection over union above the threshold
(`nms_isGreedy`).  What it keeps of a class does not depend on the other classes
(`nms_classes`).

The comparator of its sort sees the score only, so detections of one score come in any order.
Suppression is decided by who comes first, and so the input's order matters exactly when two
different detections of one score, neither of them suppressed from above, suppress each other
(`nms_order_iff`).
-/
import JetsonPerception.Lib.Ranked
import JetsonPerception.Detector.Postprocess
import Mathlib.Tactic.Linarith

namespace JetsonPerception.Detector

/-! ## Intersection over union -/

/-- The area that two rectangles share. -/
def Rect.shared (a b : Rect) : ℚ := if a.Overlaps b then (a.common b).area else 0

/-- Intersection over union. -/
def Rect.iou (a b : Rect) : ℚ := a.shared b / (a.area + b.area - a.shared b)

/-- The same class, and an intersection over union above the threshold. -/
def Covers (iouThreshold : ℚ) (a b : Detection) : Prop :=
  a.classId = b.classId ∧ iouThreshold < a.box.iou b.box

variable {meet : Rect → Rect → Rect}

theorem Intersects.area (h : Intersects meet) (a b : Rect) : (meet a b).area = a.shared b := by
  rw [Rect.shared]
  split
  case isTrue hab => rw [h.overlap a b hab]
  case isFalse hab =>
      rw [h.empty a b hab]
      exact zero_mul _

theorem Rect.overlaps_comm (a b : Rect) : a.Overlaps b ↔ b.Overlaps a := by
  simp only [Rect.Overlaps, max_comm, min_comm]

theorem Rect.common_comm (a b : Rect) : a.common b = b.common a := by
  simp only [Rect.common, max_comm, min_comm]

theorem Rect.shared_comm (a b : Rect) : a.shared b = b.shared a := by
  simp only [Rect.shared, Rect.common_comm a b, Rect.overlaps_comm a b]

theorem Rect.iou_comm (a b : Rect) : a.iou b = b.iou a := by
  rw [Rect.iou, Rect.iou, Rect.shared_comm a b, add_comm a.area]

/-- What overlaps shares no more than its own area. -/
theorem Rect.shared_le {a b : Rect} (h : a.Overlaps b) : a.shared b ≤ a.area := by
  obtain ⟨hx, hy⟩ := h
  have hxl : a.x ≤ max a.x b.x := le_max_left _ _
  have hxr : min a.right b.right ≤ a.x + a.width := min_le_left _ _
  have hyl : a.y ≤ max a.y b.y := le_max_left _ _
  have hyr : min a.bottom b.bottom ≤ a.y + a.height := min_le_left _ _
  rw [Rect.shared, if_pos ⟨hx, hy⟩]
  have hwidth : min a.right b.right - max a.x b.x ≤ a.width := by linarith
  have hheight : min a.bottom b.bottom - max a.y b.y ≤ a.height := by linarith
  exact mul_le_mul hwidth hheight (sub_pos.mpr hy).le ((sub_pos.mpr hx).le.trans hwidth)

/-- The union of two rectangles of positive area has positive area. -/
theorem Rect.union_pos {a b : Rect} (ha : 0 < a.area) (hb : 0 < b.area) :
    0 < a.area + b.area - a.shared b := by
  by_cases h : a.Overlaps b
  · have hle := Rect.shared_le h
    linarith
  · rw [Rect.shared, if_neg h]
    linarith

/-- What the inner loop of `nms` asks, on boxes of positive area. -/
theorem suppresses_iff (hmeet : Intersects meet) (iouThreshold : ℚ) {a b : Detection}
    (ha : 0 < a.box.area) (hb : 0 < b.box.area) :
    suppresses meet iouThreshold a b = true ↔ Covers iouThreshold a b := by
  simp only [suppresses, Covers, hmeet.area, Bool.and_eq_true, beq_iff_eq, decide_eq_true_eq]
  constructor
  · rintro ⟨hclass, -, hiou⟩
    exact ⟨hclass.symm, hiou⟩
  · rintro ⟨hclass, hiou⟩
    exact ⟨hclass.symm, Rect.union_pos ha hb, hiou⟩

theorem suppresses_comm (hmeet : Intersects meet) (iouThreshold : ℚ) (a b : Detection) :
    suppresses meet iouThreshold a b = suppresses meet iouThreshold b a := by
  simp only [suppresses, hmeet.area, Rect.shared_comm a.box, add_comm a.box.area,
    Bool.beq_comm (a := b.classId)]

theorem Covers.symm {iouThreshold : ℚ} {a b : Detection} (h : Covers iouThreshold a b) :
    Covers iouThreshold b a :=
  ⟨h.1.symm, Rect.iou_comm a.box b.box ▸ h.2⟩

/-! ## Looking back -/

/-- `keep` tells the detections that no kept one before them covers. -/
def Backward (iouThreshold : ℚ) (d : List Detection) (keep : Fin d.length → Bool) : Prop :=
  ∀ i, keep i = true ↔ ∀ j < i, keep j = true → ¬ Covers iouThreshold (d.get j) (d.get i)

/-- `kept` is the greedy suppression of `dets`, ranked as `d`. -/
structure IsGreedy (iouThreshold : ℚ) (dets d kept : List Detection) : Prop where
  perm : d.Perm dets
  ranked : Selection.Descending Detection.score d
  exists_keep : ∃ keep, Backward iouThreshold d keep
  kept_eq : ∀ keep, Backward iouThreshold d keep →
    kept = ((List.finRange d.length).filter keep).map d.get
  descending : Selection.Descending Detection.score kept
  subperm : kept.Subperm dets
  free : kept.Pairwise fun a b => ¬ Covers iouThreshold a b ∧ ¬ Covers iouThreshold b a
  covered : ∀ keep, Backward iouThreshold d keep → ∀ i, keep i = false →
    ∃ j < i, keep j = true ∧ Covers iouThreshold (d.get j) (d.get i) ∧
      (d.get i).score ≤ (d.get j).score

variable {sort : (Detection → Detection → Bool) → List Detection → List Detection}

/-- On boxes of positive area, looking back in the specification's words is looking back in the
code's. -/
theorem backward_iff (hmeet : Intersects meet) {iouThreshold : ℚ} {d : List Detection}
    (hpos : ∀ a ∈ d, 0 < a.box.area) (keep : Fin d.length → Bool) :
    Backward iouThreshold d keep ↔ Selection.Keeps (suppresses meet iouThreshold) d keep := by
  have hmiss : ∀ i j : Fin d.length, ¬ Covers iouThreshold (d.get j) (d.get i) ↔
      suppresses meet iouThreshold (d.get j) (d.get i) = false := by
    intro i j
    have hiff := suppresses_iff hmeet iouThreshold
      (hpos _ (List.get_mem d j)) (hpos _ (List.get_mem d i))
    rw [← Bool.not_eq_true]
    exact not_congr hiff.symm
  simp only [Backward, Selection.Keeps, hmiss]

/-- A position that is not kept is covered by a kept one before it. -/
theorem Backward.covered {iouThreshold : ℚ} {d : List Detection} {keep : Fin d.length → Bool}
    (h : Backward iouThreshold d keep) (hranked : Selection.Descending Detection.score d)
    {i : Fin d.length} (hi : keep i = false) :
    ∃ j < i, keep j = true ∧ Covers iouThreshold (d.get j) (d.get i) ∧
      (d.get i).score ≤ (d.get j).score := by
  by_contra hnone
  have hkept : keep i = true := by
    refine (h i).mpr fun j hj hkeep hcov => hnone ⟨j, hj, hkeep, hcov, ?_⟩
    exact List.pairwise_iff_getElem.mp hranked j i j.isLt i.isLt hj
  rw [hi] at hkept
  exact Bool.noConfusion hkept

/-- **`nms` is greedy suppression**, whatever order the sort gives to equal scores. -/
theorem nms_isGreedy (hmeet : Intersects meet)
    (hsort : Selection.Sorts Detection.score (sort scoreGt)) (iouThreshold : ℚ)
    (dets : List Detection) (hpos : ∀ a ∈ dets, 0 < a.box.area) :
    IsGreedy iouThreshold dets (sort scoreGt dets) (nms meet sort iouThreshold dets) := by
  have hperm := hsort.perm dets
  have hranked := hsort.descending dets
  have hpos' : ∀ a ∈ sort scoreGt dets, 0 < a.box.area := fun a ha =>
    hpos a (hperm.mem_iff.mp ha)
  have hkeeps := Selection.keeps_keptAt (suppresses meet iouThreshold) (sort scoreGt dets)
  have hsub : (Selection.greedy (suppresses meet iouThreshold) (sort scoreGt dets)).Sublist
      (sort scoreGt dets) := Selection.greedy_sublist _
  rw [nms_eq_greedy]
  constructor
  case perm => exact hperm
  case ranked => exact hranked
  case exists_keep => exact ⟨_, (backward_iff hmeet hpos' _).mpr hkeeps⟩
  case kept_eq =>
      intro keep hkeep
      rw [Selection.Keeps.unique ((backward_iff hmeet hpos' keep).mp hkeep) hkeeps]
      exact Selection.greedy_eq_filter _ _
  case descending => exact Selection.greedy_descending hranked
  case subperm => exact hsub.subperm.trans hperm.subperm
  case free =>
      refine (Selection.greedy_pairwise _ _).imp_of_mem fun {a b} ha hb hmiss => ?_
      have hnot : ¬ Covers iouThreshold a b := by
        rw [← suppresses_iff hmeet iouThreshold (hpos' a (hsub.subset ha))
          (hpos' b (hsub.subset hb)), hmiss]
        exact Bool.false_ne_true
      exact ⟨hnot, fun hcov => hnot hcov.symm⟩
  case covered =>
      intro keep hkeep i hi
      exact hkeep.covered hranked hi

theorem stableSort_isSort : Selection.Sorts Detection.score (stableSort scoreGt) where
  perm l := List.mergeSort_perm l _
  descending := stableSort_sorts.descending

/-- A ranked list is its own stable sort. -/
theorem stableSort_of_descending {d : List Detection}
    (h : Selection.Descending Detection.score d) : stableSort scoreGt d = d :=
  (stableSort_sorts.descending d).ext h fun k => stableSort_sorts.level_eq k d

/-- Three boxes of 10 × 10 in a row, each half over the next, of one class and one score. -/
def row : List Detection :=
  [⟨⟨0, 0, 10, 10⟩, 1 / 2, 0⟩, ⟨⟨5, 0, 10, 10⟩, 1 / 2, 0⟩, ⟨⟨10, 0, 10, 10⟩, 1 / 2, 0⟩]

theorem row_descending {d : List Detection} (h : d.Perm row) :
    Selection.Descending Detection.score d := by
  have hscore : ∀ a ∈ d, a.score = 1 / 2 := by
    intro a ha
    have ha : a ∈ row := h.mem_iff.mp ha
    simp only [row, List.mem_cons, List.not_mem_nil, or_false] at ha
    rcases ha with rfl | rfl | rfl <;> rfl
  exact List.pairwise_of_forall_mem_list fun a ha b hb => by rw [hscore a ha, hscore b hb]

theorem nms_isGreedy_row : IsGreedy (1 / 4) row (stableSort scoreGt row)
    (nms Rect.meet stableSort (1 / 4) row) :=
  nms_isGreedy Rect.meet_intersects stableSort_isSort (1 / 4) row (by decide +kernel)

/-! ## One class at a time -/

/-- The detections of a class. -/
def ofClass (c : ℤ) (dets : List Detection) : List Detection := dets.filter (·.classId == c)

/-- Nothing suppresses across classes. -/
theorem suppresses_class {iouThreshold : ℚ} {a b : Detection}
    (h : suppresses meet iouThreshold a b = true) : a.classId = b.classId := by
  rw [suppresses, Bool.and_eq_true, beq_iff_eq] at h
  exact h.1.symm

theorem ofClass_nms (hsort : Selection.SortsStably Detection.score (sort scoreGt))
    (iouThreshold : ℚ) (dets : List Detection) (c : ℤ) :
    ofClass c (nms meet sort iouThreshold dets) =
      nms meet sort iouThreshold (ofClass c dets) := by
  have hsep : ∀ a b, suppresses meet iouThreshold a b = true →
      (a.classId == c) = (b.classId == c) := by
    intro a b h
    rw [suppresses_class h]
  rw [nms_eq_greedy, nms_eq_greedy, ofClass, ofClass, hsort.filter]
  exact Selection.greedy_filter hsep _

/-- **`nms` treats classes independently**: what it keeps of a class is what it keeps of that
class alone, and so does not change with the other classes. -/
theorem nms_classes (hsort : Selection.SortsStably Detection.score (sort scoreGt))
    (iouThreshold : ℚ) (dets : List Detection) (c : ℤ) :
    ofClass c (nms meet sort iouThreshold dets) = nms meet sort iouThreshold (ofClass c dets) ∧
    ∀ dets', ofClass c dets' = ofClass c dets →
      ofClass c (nms meet sort iouThreshold dets') =
        ofClass c (nms meet sort iouThreshold dets) := by
  refine ⟨ofClass_nms hsort iouThreshold dets c, fun dets' hsame => ?_⟩
  rw [ofClass_nms hsort, ofClass_nms hsort, hsame]

/-- The row, with a box of another class at a higher score over the whole of it. -/
def rowUnder : List Detection := ⟨⟨0, 0, 20, 10⟩, 9 / 10, 1⟩ :: row

theorem nms_classes_row :
    ofClass 0 (nms Rect.meet stableSort (1 / 4) rowUnder) =
        nms Rect.meet stableSort (1 / 4) (ofClass 0 rowUnder) ∧
      ofClass 0 (nms Rect.meet stableSort (1 / 4) row) =
        ofClass 0 (nms Rect.meet stableSort (1 / 4) rowUnder) := by
  have hrow : ofClass 0 row = ofClass 0 rowUnder := rfl
  obtain ⟨halone, hothers⟩ := nms_classes stableSort_sorts (1 / 4) rowUnder 0
  exact ⟨halone, hothers row hrow⟩

/-! ## The order of the input -/

/-- **The order of the input does not matter** exactly when no two different detections of one
score, neither of them suppressed from above, suppress each other. -/
theorem nms_order_iff (hmeet : Intersects meet) (iouThreshold : ℚ) (dets : List Detection) :
    (∀ sort, Selection.Sorts Detection.score (sort scoreGt) → ∀ dets', dets'.Perm dets →
      (nms meet sort iouThreshold dets').Perm (nms meet sort iouThreshold dets)) ↔
      Selection.TieFree (suppresses meet iouThreshold) Detection.score dets := by
  rw [← Selection.greedy_perm_iff (suppresses_comm hmeet iouThreshold)]
  simp only [nms_eq_greedy]
  constructor
  · intro hsame s s' hs hdesc hs' hdesc'
    have h := hsame stableSort stableSort_isSort s hs
    have h' := hsame stableSort stableSort_isSort s' hs'
    rw [stableSort_of_descending hdesc] at h
    rw [stableSort_of_descending hdesc'] at h'
    exact h.trans h'.symm
  · intro hgreedy sort hsort dets' hperm
    exact hgreedy _ _ ((hsort.perm dets').trans hperm) (hsort.descending dets')
      (hsort.perm dets) (hsort.descending dets)

/-- The outer two boxes of the row, which do not overlap. -/
def outer : List Detection := [row[0], row[2]]

theorem nms_order_iff_outer :
    (nms Rect.meet stableSort (1 / 4) [row[2], row[0]]).Perm
      (nms Rect.meet stableSort (1 / 4) outer) := by
  have hmiss : ∀ a ∈ outer, ∀ b ∈ outer, a ≠ b → suppresses Rect.meet (1 / 4) a b = false := by
    decide +kernel
  exact (nms_order_iff Rect.meet_intersects (1 / 4) outer).mpr
    (fun a ha b hb hne _ _ _ => hmiss a ha b hb hne) stableSort stableSort_isSort
    [row[2], row[0]] (.swap _ _ _)

/-- The middle of the row first keeps one box, the row as it stands keeps two. -/
theorem nms_order_matters : ¬ ∀ meet sort, Intersects meet →
    Selection.Sorts Detection.score (sort scoreGt) → ∀ iouThreshold dets dets',
    dets'.Perm dets →
      (nms meet sort iouThreshold dets').Perm (nms meet sort iouThreshold dets) := by
  intro hall
  let middleFirst : List Detection := [row[1], row[0], row[2]]
  have hperm : middleFirst.Perm row := .swap _ _ _
  have h := (hall Rect.meet stableSort Rect.meet_intersects stableSort_isSort (1 / 4) row
    middleFirst hperm).length_eq
  rw [nms_eq_greedy, nms_eq_greedy, stableSort_of_descending (row_descending hperm),
    stableSort_of_descending (row_descending (.refl _))] at h
  exact absurd h (by decide +kernel)

end JetsonPerception.Detector
