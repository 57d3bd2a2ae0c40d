/-
# What a published array of detections is like

Whatever the network answers: at most one detection for each anchor, named from the table of
classes, scored above the threshold, its box inside the image, the best first, and no two of one
class that overlap more than the suppression allows (`published_valid`).

Classes are told apart by their names in the message, and by their numbers in the suppression;
the names of the table are all different.
-/
import JetsonPerception.Detector.Publish

namespace JetsonPerception.Detector

variable {P : Settings} {X : Platform}

/-! ## The detections of a frame -/

/-- What decoding and suppression make of any output of the network. -/
structure Sane (P : Settings) (msg : Message) (dets : List Detection) : Prop where
  count : dets.length ≤ anchorCount
  classId : ∀ d ∈ dets, 0 ≤ d.classId ∧ d.classId < classCount
  score : ∀ d ∈ dets, P.scoreThreshold < d.score
  width : ∀ d ∈ dets, 0 < d.box.width ∧ 0 ≤ d.box.x ∧ d.box.right ≤ msg.width
  height : ∀ d ∈ dets, 0 < d.box.height ∧ 0 ≤ d.box.y ∧ d.box.bottom ≤ msg.height
  ranked : dets.Pairwise fun a b => b.score ≤ a.score
  free : dets.Pairwise fun a b => a.classId = b.classId → a.box.iou b.box ≤ P.nmsIou

/-- A decoded detection is that of an anchor. -/
theorem mem_decode {numClasses numAnchors : ℕ} (hmeet : Intersects X.meet)
    {out : Tensor numClasses numAnchors} {t : ℚ} {g : Geometry} {d : Detection}
    (h : d ∈ decodeYolov8 X.meet out t g) : ∃ i, Qualifies out t g i ∧ Describes out g i d := by
  obtain ⟨i, -, hi⟩ := List.mem_filterMap.mp h
  by_cases hq : Qualifies out t g i
  · obtain ⟨d', hd', hdesc⟩ := decodeAnchor_of_qualifies hmeet hq
    rw [hi] at hd'
    obtain rfl := Option.some.inj hd'
    exact ⟨i, hq, hdesc⟩
  · rw [decodeAnchor_of_not_qualifies hmeet hq] at hi
    cases hi

theorem detectionsOf_sane (hmeet : Intersects X.meet)
    (hsort : Selection.Sorts Detection.score (X.sort scoreGt))
    (out : Tensor classCount anchorCount) (msg : Message) :
    Sane P msg (detectionsOf P X out msg) := by
  let g := (letterbox msg.width msg.height).geometry msg.width msg.height
  let decoded := decodeYolov8 X.meet out P.scoreThreshold g
  have hgreedy : detectionsOf P X out msg =
      Selection.greedy (suppresses X.meet P.nmsIou) (X.sort scoreGt decoded) := nms_eq_greedy ..
  have hsub : (detectionsOf P X out msg).Sublist (X.sort scoreGt decoded) := by
    rw [hgreedy]
    exact Selection.greedy_sublist _
  have hmem : ∀ d ∈ detectionsOf P X out msg, ∃ i, Qualifies out P.scoreThreshold g i ∧
      Describes out g i d := by
    intro d hd
    exact mem_decode hmeet ((hsort.perm decoded).mem_iff.mp (hsub.subset hd))
  have harea : ∀ d ∈ detectionsOf P X out msg, 0 < d.box.area := by
    intro d hd
    obtain ⟨i, -, hdesc⟩ := hmem d hd
    exact hdesc.area
  have hoverlap : ∀ d ∈ detectionsOf P X out msg, 0 < d.box.width ∧ 0 < d.box.height := by
    intro d hd
    obtain ⟨i, ⟨-, hx, hy⟩, hdesc⟩ := hmem d hd
    rw [hdesc.box]
    exact ⟨sub_pos.mpr hx, sub_pos.mpr hy⟩
  constructor
  case count =>
      calc (detectionsOf P X out msg).length ≤ (X.sort scoreGt decoded).length := hsub.length_le
        _ = decoded.length := (hsort.perm decoded).length_eq
        _ ≤ (List.finRange anchorCount).length := List.length_filterMap_le _ _
        _ = anchorCount := List.length_finRange
  case classId =>
      intro d hd
      obtain ⟨i, -, hdesc⟩ := hmem d hd
      obtain ⟨c, -, hc, -⟩ := hdesc.top
      have hlt := c.isLt
      omega
  case score =>
      intro d hd
      obtain ⟨i, ⟨⟨c, htop, hc⟩, -⟩, hdesc⟩ := hmem d hd
      obtain ⟨c', htop', -, hscore⟩ := hdesc.top
      rw [hscore]
      exact hc.trans_le (htop'.largest c)
  case width =>
      intro d hd
      obtain ⟨i, -, hdesc⟩ := hmem d hd
      exact ⟨(hoverlap d hd).1, hdesc.left, hdesc.right⟩
  case height =>
      intro d hd
      obtain ⟨i, -, hdesc⟩ := hmem d hd
      exact ⟨(hoverlap d hd).2, hdesc.above, hdesc.bottom⟩
  case ranked =>
      rw [hgreedy]
      exact Selection.greedy_descending (hsort.descending decoded)
  case free =>
      have hmiss : (detectionsOf P X out msg).Pairwise fun a b =>
          suppresses X.meet P.nmsIou a b = false := by
        rw [hgreedy]
        exact Selection.greedy_pairwise _ _
      refine hmiss.imp_of_mem fun {a b} ha hb hab hclass => ?_
      by_contra hiou
      have hcovers : Covers P.nmsIou a b := ⟨hclass, not_le.mp hiou⟩
      rw [(suppresses_iff hmeet P.nmsIou (harea a ha) (harea b hb)).mpr hcovers] at hab
      cases hab

/-! ## The message -/

theorem cocoNames_length : cocoNames.length = classCount := rfl

theorem cocoNames_nodup : cocoNames.Nodup := by decide +kernel

theorem className_eq {classId : ℤ} {name : String} (h : className classId = some name) :
    0 ≤ classId ∧ cocoNames[classId.toNat]? = some name := by
  rw [className] at h
  split at h
  · exact ⟨‹_›, h⟩
  · cases h

/-- Every class of the network has a name. -/
theorem className_of_lt {classId : ℤ} (h : 0 ≤ classId ∧ classId < classCount) :
    ∃ name, className classId = some name := by
  have hlt : classId.toNat < cocoNames.length := by
    rw [cocoNames_length]
    omega
  exact ⟨_, (if_pos h.1).trans (List.getElem?_eq_getElem hlt)⟩

/-- Two classes of one name are one class. -/
theorem className_inj {c c' : ℤ} {name : String} (h : className c = some name)
    (h' : className c' = some name) : c = c' := by
  obtain ⟨h0, hget⟩ := className_eq h
  obtain ⟨h0', hget'⟩ := className_eq h'
  have hlt : c.toNat < cocoNames.length := (List.getElem?_eq_some_iff.mp hget).1
  have hnat : c.toNat = c'.toNat :=
    (List.getElem?_inj hlt cocoNames_nodup).mp (hget.trans hget'.symm)
  omega

/-- What `mapM` makes of each element. -/
theorem forall₂_mapM {α β : Type} {f : α → Option β} : ∀ {l : List α} {l' : List β},
    l.mapM f = some l' → List.Forall₂ (fun a b => f a = some b) l l' := by
  intro l
  induction l with
  | nil =>
      intro l' h
      cases h
      exact .nil
  | cons a l ih =>
      intro l' h
      rw [List.mapM_cons] at h
      obtain ⟨b, hb, h⟩ := Option.bind_eq_some_iff.mp h
      obtain ⟨bs, hbs, h⟩ := Option.bind_eq_some_iff.mp h
      cases h
      exact .cons hb (ih hbs)

theorem mapM_isSome {α β : Type} {f : α → Option β} {l : List α}
    (h : ∀ a ∈ l, ∃ b, f a = some b) : ∃ l', l.mapM f = some l' := by
  induction l with
  | nil => exact ⟨[], rfl⟩
  | cons a l ih =>
      obtain ⟨b, hb⟩ := h a List.mem_cons_self
      obtain ⟨l', hl'⟩ := ih fun a ha => h a (List.mem_cons_of_mem _ ha)
      refine ⟨b :: l', ?_⟩
      rw [List.mapM_cons, hb, hl']
      rfl

/-- The box that a message describes by its centre and its size. -/
def Detection2D.box (d : Detection2D) : Rect :=
  ⟨d.centerX - d.sizeX / 2, d.centerY - d.sizeY / 2, d.sizeX, d.sizeY⟩

/-- The one hypothesis of a published detection. -/
def Detection2D.Names (d : Detection2D) (name : String) (score : ℚ) : Prop :=
  d.results = [⟨name, score⟩]

/-- What a subscriber can rely on. -/
structure Valid (P : Settings) (msg : Message) (array : Detection2DArray) : Prop where
  header : array.header = msg.header ∧ ∀ d ∈ array.detections, d.header = msg.header
  count : array.detections.length ≤ anchorCount
  names : ∀ d ∈ array.detections, ∃ name ∈ cocoNames, ∃ score, d.Names name score ∧
    P.scoreThreshold < score
  width : ∀ d ∈ array.detections, 0 < d.sizeX ∧ 0 ≤ d.box.x ∧ d.box.right ≤ msg.width
  height : ∀ d ∈ array.detections, 0 < d.sizeY ∧ 0 ≤ d.box.y ∧ d.box.bottom ≤ msg.height
  ranked : array.detections.Pairwise fun a b => ∀ name name' score score',
    a.Names name score → b.Names name' score' → score' ≤ score
  free : array.detections.Pairwise fun a b => ∀ name score score',
    a.Names name score → b.Names name score' → a.box.iou b.box ≤ P.nmsIou

/-- A published detection is one of the list, under its name. -/
structure Renders (header : Header) (d : Detection) (out : Detection2D) : Prop where
  header : out.header = header
  box : out.box = d.box
  name : ∃ name, className d.classId = some name ∧ out.Names name d.score

theorem publishDetections_renders {header : Header} {dets : List Detection}
    {array : Detection2DArray} (h : publishDetections header dets = some array) :
    array.header = header ∧ List.Forall₂ (Renders header) dets array.detections := by
  obtain ⟨outs, houts, rfl⟩ := Option.map_eq_some_iff.mp h
  refine ⟨rfl, (forall₂_mapM houts).imp fun d out hd => ?_⟩
  obtain ⟨name, hname, rfl⟩ := Option.map_eq_some_iff.mp hd
  refine ⟨rfl, ?_, name, hname, rfl⟩
  simp [Detection2D.box]

theorem publishDetections_isSome {header : Header} {dets : List Detection}
    (h : ∀ d ∈ dets, 0 ≤ d.classId ∧ d.classId < classCount) :
    ∃ array, publishDetections header dets = some array := by
  have hall : ∀ d ∈ dets, ∃ out, ((className d.classId).map fun name =>
      { header
        centerX := d.box.x + d.box.width / 2
        centerY := d.box.y + d.box.height / 2
        sizeX := d.box.width
        sizeY := d.box.height
        results := [⟨name, d.score⟩] : Detection2D }) = some out := by
    intro d hd
    obtain ⟨name, hname⟩ := className_of_lt (h d hd)
    rw [hname]
    exact ⟨_, rfl⟩
  obtain ⟨outs, houts⟩ := mapM_isSome hall
  exact ⟨⟨header, outs⟩, by rw [publishDetections, houts]; rfl⟩

/-! ## What is published -/

theorem mem_right {α β : Type} {R : α → β → Prop} {l : List α} {l' : List β}
    (h : List.Forall₂ R l l') {b : β} (hb : b ∈ l') : ∃ a ∈ l, R a b := by
  induction h with
  | nil => cases hb
  | cons hab _ ih =>
      rcases List.mem_cons.mp hb with rfl | hb
      · exact ⟨_, List.mem_cons_self, hab⟩
      · obtain ⟨a, ha, hR⟩ := ih hb
        exact ⟨a, List.mem_cons_of_mem _ ha, hR⟩

theorem pairwise_right {α β : Type} {R : α → β → Prop} {S : α → α → Prop} {T : β → β → Prop}
    (hST : ∀ a b a' b', R a a' → R b b' → S a b → T a' b') {l : List α} {l' : List β}
    (h : List.Forall₂ R l l') (hl : l.Pairwise S) : l'.Pairwise T := by
  induction h with
  | nil => exact .nil
  | cons hab htail ih =>
      obtain ⟨hhead, hrest⟩ := List.pairwise_cons.mp hl
      refine List.pairwise_cons.mpr ⟨fun b' hb' => ?_, ih hrest⟩
      obtain ⟨a', ha', hR⟩ := mem_right htail hb'
      exact hST _ _ _ _ hab hR (hhead a' ha')

theorem Renders.names {header : Header} {d : Detection} {out : Detection2D}
    (h : Renders header d out) {name : String} {score : ℚ} (hname : out.Names name score) :
    className d.classId = some name ∧ score = d.score := by
  obtain ⟨name', hclass, hout⟩ := h.name
  rw [Detection2D.Names, hout] at hname
  cases hname
  exact ⟨hclass, rfl⟩

theorem Sane.valid {msg : Message} {dets : List Detection} {array : Detection2DArray}
    (h : Sane P msg dets) (hpublish : publishDetections msg.header dets = some array) :
    Valid P msg array := by
  obtain ⟨hheader, hrenders⟩ := publishDetections_renders hpublish
  constructor
  case header =>
      refine ⟨hheader, fun out hout => ?_⟩
      obtain ⟨d, -, hd⟩ := mem_right hrenders hout
      exact hd.header
  case count =>
      rw [← hrenders.length_eq]
      exact h.count
  case names =>
      intro out hout
      obtain ⟨d, hd, hrender⟩ := mem_right hrenders hout
      obtain ⟨name, hclass, hname⟩ := hrender.name
      obtain ⟨-, hget⟩ := className_eq hclass
      exact ⟨name, List.mem_of_getElem? hget, d.score, hname, h.score d hd⟩
  case width =>
      intro out hout
      obtain ⟨d, hd, hrender⟩ := mem_right hrenders hout
      have hwidth := h.width d hd
      rw [← hrender.box] at hwidth
      exact hwidth
  case height =>
      intro out hout
      obtain ⟨d, hd, hrender⟩ := mem_right hrenders hout
      have hheight := h.height d hd
      rw [← hrender.box] at hheight
      exact hheight
  case ranked =>
      refine pairwise_right ?_ hrenders h.ranked
      intro a b a' b' ha hb hab name name' score score' hname hname'
      rw [(ha.names hname).2, (hb.names hname').2]
      exact hab
  case free =>
      refine pairwise_right ?_ hrenders h.free
      intro a b a' b' ha hb hab name score score' hname hname'
      rw [ha.box, hb.box]
      exact hab (className_inj (ha.names hname).1 (hb.names hname').1)

/-- Nothing that decoding and suppression return is outside of the table. -/
theorem publishOverlay_table {subscribed : Bool} {header : Header} {image : Mat Pixel}
    {dets : List Detection} (h : ∀ d ∈ dets, 0 ≤ d.classId ∧ d.classId < classCount) :
    publishOverlay P X subscribed header image dets ≠ .error .table := by
  intro htable
  rw [publishOverlay] at htable
  split at htable
  · rw [overlayDrawings] at htable
    cases hcanvas : overlayCanvas P X image with
    | error f =>
        rw [hcanvas] at htable
        have hf : f = .table := by
          cases htable
          rfl
        rw [overlayCanvas] at hcanvas
        split at hcanvas
        · dsimp only at hcanvas
          split at hcanvas
          · cases hcanvas
            cases hf
          · cases hcanvas
        · cases hcanvas
    | ok canvas =>
        have hall : ∀ d ∈ dets,
            ∃ ds, (className d.classId).map (drawings canvas.1 d) = some ds := by
          intro d hd
          obtain ⟨name, hname⟩ := className_of_lt (h d hd)
          rw [hname]
          exact ⟨_, rfl⟩
        obtain ⟨ds, hds⟩ := mapM_isSome hall
        rw [hcanvas] at htable
        simp only [hds] at htable
        cases htable
  · cases htable

theorem report_valid (hmeet : Intersects X.meet)
    (hsort : Selection.Sorts Detection.score (X.sort scoreGt))
    (out : Tensor classCount anchorCount) (frame : Input) :
    (∀ array, .detections array ∈ (report P X out frame).1 → Valid P frame.msg array) ∧
      (report P X out frame).2 ≠ some .table := by
  obtain ⟨msg, subscribed, calls⟩ := frame
  have hsane : Sane P msg (detectionsOf P X out msg) := detectionsOf_sane hmeet hsort out msg
  obtain ⟨array, harray⟩ : ∃ array,
      publishDetections msg.header (detectionsOf P X out msg) = some array :=
    publishDetections_isSome hsane.classId
  have hoverlay : publishOverlay P X subscribed msg.header msg.view (detectionsOf P X out msg) ≠
      .error .table := publishOverlay_table hsane.classId
  have hvalid := hsane.valid harray
  rw [report]
  simp only [harray]
  cases hpublish : publishOverlay P X subscribed msg.header msg.view (detectionsOf P X out msg) with
  | error f =>
      rw [hpublish] at hoverlay
      refine ⟨fun array' h => ?_, fun h => ?_⟩
      · obtain rfl : array' = array := by simpa using h
        exact hvalid
      · cases h
        exact hoverlay rfl
  | ok image =>
      cases image with
      | none =>
          refine ⟨fun array' h => ?_, fun h => ?_⟩
          · obtain rfl : array' = array := by simpa using h
            exact hvalid
          · cases h
      | some image =>
          refine ⟨fun array' h => ?_, fun h => ?_⟩
          · obtain rfl : array' = array := by simpa using h
            exact hvalid
          · cases h

/-- A frame whose letterbox can be used has its detections published, from the output that its
inference leaves. -/
theorem process_sends (hmeet : Intersects X.meet)
    (hsort : Selection.Sorts Detection.score (X.sort scoreGt)) (m : Memory) (frame : Input)
    (h : letterboxError frame.msg.view = none) :
    ∃ array, publishDetections frame.msg.header (detectionsOf P X
        (infer X frame.calls (networkInput X frame.msg.view) m.buffers).hostOutput frame.msg) =
        some array ∧ .detections array ∈ (process P X m frame).sent := by
  let out := (infer X frame.calls (networkInput X frame.msg.view) m.buffers).hostOutput
  have hsane : Sane P frame.msg (detectionsOf P X out frame.msg) :=
    detectionsOf_sane hmeet hsort out frame.msg
  obtain ⟨array, harray⟩ : ∃ array,
      publishDetections frame.msg.header (detectionsOf P X out frame.msg) = some array :=
    publishDetections_isSome hsane.classId
  have hsent : (process P X m frame).sent = (report P X out frame).1 := by
    have hlook := process_simulates (P := P) (X := X) m frame
    rw [look, h] at hlook
    exact (congrArg Turns.Turn.sent hlook).symm
  refine ⟨array, harray, ?_⟩
  rw [hsent, report]
  simp only [harray]
  cases publishOverlay P X frame.subscribed frame.msg.header frame.msg.view
      (detectionsOf P X out frame.msg) with
  | error f => exact List.mem_cons_self
  | ok image => cases image <;> exact List.mem_cons_self

/-- **Whatever the network answers**, on whatever frames: every array that is published is valid
for one of them, and no class is ever looked up outside of the table. -/
theorem published_valid (hmeet : Intersects X.meet)
    (hsort : Selection.Sorts Detection.score (X.sort scoreGt)) (m : Memory) (frames : List Input) :
    (∀ array, .detections array ∈ (Turns.run (process P X) m frames).sent →
      ∃ frame ∈ frames, Valid P frame.msg array) ∧
    (Turns.run (process P X) m frames).fault ≠ some .table := by
  have hstep : ∀ m frame, (∀ array, .detections array ∈ (process P X m frame).sent →
      Valid P frame.msg array) ∧ (process P X m frame).fault ≠ some .table := by
    intro m frame
    rw [process]
    cases preprocess X.resize X.garbage m.scratch frame.msg.view with
    | error e =>
        refine ⟨fun array h => ?_, fun h => ?_⟩
        · cases h
        · cases h
    | ok scratch => exact report_valid hmeet hsort _ frame
  constructor
  · intro array h
    obtain ⟨before, frame, after, rfl, -, harray⟩ := Turns.mem_run h
    exact ⟨frame, by simp, (hstep _ frame).1 array harray⟩
  · intro h
    obtain ⟨before, frame, after, rfl, -, hfault⟩ := Turns.fault_run h
    exact (hstep _ frame).2 hfault

theorem detectionsOf_ne_nil (hmeet : Intersects X.meet)
    (hsort : Selection.Sorts Detection.score (X.sort scoreGt))
    {out : Tensor classCount anchorCount} {msg : Message} {i : Fin anchorCount}
    (h : Qualifies out P.scoreThreshold
      ((letterbox msg.width msg.height).geometry msg.width msg.height) i) :
    detectionsOf P X out msg ≠ [] := by
  obtain ⟨d, hd, -⟩ := decodeAnchor_of_qualifies hmeet h
  have hmem : d ∈ decodeYolov8 X.meet out P.scoreThreshold
      ((letterbox msg.width msg.height).geometry msg.width msg.height) :=
    List.mem_filterMap.mpr ⟨i, List.mem_finRange i, hd⟩
  rw [detectionsOf, nms_eq_greedy]
  refine Selection.greedy_ne_nil (List.ne_nil_of_mem (a := d) ?_)
  exact (hsort.perm _).mem_iff.mpr hmem

theorem uniform_read (channels : ℕ → ℚ) (channel : Fin (4 + classCount)) (i : Fin anchorCount) :
    (uniform channels).read channel i = channels channel := by
  have hchannel : (channel * anchorCount + i) / anchorCount = (channel : ℕ) := by
    rw [Nat.add_comm, Nat.add_mul_div_right _ _ (by decide : 0 < anchorCount),
      Nat.div_eq_of_lt i.isLt, Nat.zero_add]
  simp only [Tensor.read, uniform, Array.getElem_ofFn, hchannel]

/-- A car in the middle is seen. -/
theorem middle_qualifies (stamp : ℕ) (bright : Bool) (i : Fin anchorCount) :
    Qualifies (uniform (middle true)) (35 / 100)
      ((letterbox (flat stamp bright).width (flat stamp bright).height).geometry
        (flat stamp bright).width (flat stamp bright).height) i := by
  have hscore : ∀ c : Fin classCount,
      (uniform (middle true)).score i c = if (c : ℕ) = 2 then 9 / 10 else 0 := by
    intro ⟨c, hc⟩
    rw [Tensor.score, uniform_read, Fin.val_natAdd, Nat.add_comm]
    match c with
    | 0 | 1 | 2 => rfl
    | c + 3 => exact (if_neg (show c + 3 ≠ 2 by omega)).symm
  have hbox : anchorBox (uniform (middle true))
      ((letterbox 1920 1080).geometry 1920 1080) i = ⟨810, 390, 300, 300⟩ := by
    rw [anchorBox]
    simp only [uniform_read]
    decide +kernel
  refine ⟨⟨⟨2, by decide⟩, ⟨fun k => ?_, fun k hk => ?_⟩, ?_⟩, ?_⟩
  · rw [hscore, hscore]
    split <;> norm_num
  · rw [hscore, hscore, if_pos rfl] at hk
    have htwo : (k : ℕ) = 2 := by
      by_contra hne
      rw [if_neg hne] at hk
      norm_num at hk
    exact Fin.le_def.mpr htwo.ge
  · rw [hscore]
    norm_num
  · show (anchorBox (uniform (middle true)) ((letterbox 1920 1080).geometry 1920 1080) i).Overlaps
      ((letterbox 1920 1080).geometry 1920 1080).image
    rw [hbox]
    decide +kernel

theorem published_valid_flat : ∃ array,
    .detections array ∈ (Turns.run (process {} brightPlatform) ⟨Scratch.empty, emptyBuffers⟩
      [onceExecuted 1]).sent ∧ array.detections ≠ [] ∧
    ∃ frame ∈ [onceExecuted 1], Valid {} frame.msg array := by
  obtain ⟨array, harray, hsent⟩ : ∃ array, publishDetections (flat 1 true).header
      (detectionsOf {} brightPlatform (uniform (middle true)) (flat 1 true)) = some array ∧
      .detections array ∈ (process {} brightPlatform ⟨Scratch.empty, emptyBuffers⟩
        (onceExecuted 1)).sent := by
    have hbright : (1 : ℚ) / 2 < networkInput brightPlatform (flat 1 true).view centre := by
      decide +kernel
    have hout : (infer brightPlatform (onceExecuted 1).calls
        (networkInput brightPlatform (onceExecuted 1).msg.view) emptyBuffers).hostOutput =
        uniform (middle true) := congrArg (fun b => uniform (middle b)) (decide_eq_true hbright)
    have h := process_sends (P := {}) (X := brightPlatform) Rect.meet_intersects
      stableSort_isSort ⟨Scratch.empty, emptyBuffers⟩ (onceExecuted 1) (by decide +kernel)
    rw [hout] at h
    exact h
  have hsent : .detections array ∈ (Turns.run (process {} brightPlatform)
      ⟨Scratch.empty, emptyBuffers⟩ [onceExecuted 1]).sent := Turns.mem_run_cons hsent
  refine ⟨array, hsent, fun hnil => ?_,
    (published_valid Rect.meet_intersects stableSort_isSort _ _).1 array hsent⟩
  have hlength := (publishDetections_renders harray).2.length_eq
  rw [hnil] at hlength
  exact detectionsOf_ne_nil Rect.meet_intersects stableSort_isSort
    (middle_qualifies 1 true ⟨0, by decide⟩) (List.length_eq_zero_iff.mp hlength)

end JetsonPerception.Detector
