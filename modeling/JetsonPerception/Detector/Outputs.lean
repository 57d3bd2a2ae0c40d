/-
# Which output of the network is published

The three calls of an inference are made one after another, whatever became of the one before.  So
the output that is decoded of a frame was copied back at the last frame whose copy came through; it
was computed at the last frame up to there on which the network was executed; and from the image of
the last frame up to there that was copied in (`outputOf`).

When everything comes through that is the frame itself.  When something does not, the boxes of an
earlier image are published under the header of the new frame, in its geometry.
-/
import JetsonPerception.Detector.Overlay
import Mathlib.Data.List.DropRight

namespace JetsonPerception.Detector

variable {P : Settings} {X : Platform}

/-! ## A cell that is written now and then -/

section Cell

variable {ι α : Type}

/-- The inputs up to the last one of a kind. -/
def upTo (p : ι → Bool) (l : List ι) : List ι := l.rdropWhile fun i => !p i

theorem upTo_concat_pos {p : ι → Bool} {i : ι} (h : p i = true) (l : List ι) :
    upTo p (l ++ [i]) = l ++ [i] :=
  List.rdropWhile_concat_neg _ _ _ (by simp [h])

theorem upTo_concat_neg {p : ι → Bool} {i : ι} (h : p i = false) (l : List ι) :
    upTo p (l ++ [i]) = upTo p l :=
  List.rdropWhile_concat_pos _ _ _ (by simp [h])

/-- A cell that only the inputs of a kind write to holds what the last of them wrote. -/
theorem cell_eq (p : ι → Bool) (cell written : List ι → α)
    (h : ∀ l i, cell (l ++ [i]) = if p i then written (l ++ [i]) else cell l) (l : List ι) :
    cell l = if (upTo p l).isEmpty then cell [] else written (upTo p l) := by
  induction l using List.reverseRecOn with
  | nil => rfl
  | append_singleton l i ih =>
      rw [h]
      cases hp : p i with
      | true => simp [upTo_concat_pos hp]
      | false => simpa [upTo_concat_neg hp] using ih

end Cell

/-! ## The buffers -/

/-- The buffers after the inferences of some frames. -/
def buffersAfter (X : Platform) (b : Buffers) (frames : List Input) : Buffers :=
  frames.foldl (fun b frame => infer X frame.calls (networkInput X frame.msg.view) b) b

theorem buffersAfter_concat (b : Buffers) (frames : List Input) (frame : Input) :
    buffersAfter X b (frames ++ [frame]) =
      infer X frame.calls (networkInput X frame.msg.view) (buffersAfter X b frames) := by
  rw [buffersAfter, List.foldl_append]
  rfl

/-- The network's input: the image of the last of the frames, of those that were copied in. -/
def givenInput (X : Platform) (b : Buffers) (given : List Input) : Fin (3 * plane) → ℚ :=
  (given.getLast?.map fun frame => networkInput X frame.msg.view).getD b.input

/-- The output that is decoded after some frames. -/
def outputOf (X : Platform) (b : Buffers) (frames : List Input) : Tensor classCount anchorCount :=
  let copied := upTo (fun frame => frame.calls.copiedOut) frames
  let executed := upTo (fun frame => frame.calls.executed) copied
  let given := upTo (fun frame => frame.calls.copiedIn) executed
  if copied.isEmpty then b.hostOutput
  else if executed.isEmpty then b.output
  else X.engine (givenInput X b given)

theorem input_eq (b : Buffers) (frames : List Input) : (buffersAfter X b frames).input =
    givenInput X b (upTo (fun frame => frame.calls.copiedIn) frames) := by
  have hcell := cell_eq (fun frame : Input => frame.calls.copiedIn)
    (fun frames => (buffersAfter X b frames).input) (givenInput X b) (fun frames frame => by
      rw [buffersAfter_concat, givenInput, List.getLast?_concat]
      rfl) frames
  refine hcell.trans ?_
  split
  · rename_i hempty
    rw [List.isEmpty_iff.mp hempty]
    rfl
  · rfl

theorem output_eq (b : Buffers) (frames : List Input) : (buffersAfter X b frames).output =
    if (upTo (fun frame => frame.calls.executed) frames).isEmpty then b.output
    else X.engine (buffersAfter X b (upTo (fun frame => frame.calls.executed) frames)).input :=
  cell_eq (fun frame : Input => frame.calls.executed)
    (fun frames => (buffersAfter X b frames).output)
    (fun frames => X.engine (buffersAfter X b frames).input) (fun frames frame => by
      simp only [buffersAfter_concat]
      rfl) frames

theorem hostOutput_eq (b : Buffers) (frames : List Input) : (buffersAfter X b frames).hostOutput =
    if (upTo (fun frame => frame.calls.copiedOut) frames).isEmpty then b.hostOutput
    else (buffersAfter X b (upTo (fun frame => frame.calls.copiedOut) frames)).output :=
  cell_eq (fun frame : Input => frame.calls.copiedOut)
    (fun frames => (buffersAfter X b frames).hostOutput)
    (fun frames => (buffersAfter X b frames).output) (fun frames frame => by
      simp only [buffersAfter_concat]
      rfl) frames

/-- The last output that came back, of the last execution before, on the last input before. -/
theorem outputOf_eq (b : Buffers) (frames : List Input) :
    (buffersAfter X b frames).hostOutput = outputOf X b frames := by
  rw [hostOutput_eq, output_eq, input_eq]
  rfl

/-- The frame's own output, if its inference comes through. -/
theorem outputOf_concat (b : Buffers) (frames : List Input) {frame : Input}
    (h : frame.calls = {}) :
    outputOf X b (frames ++ [frame]) = X.engine (networkInput X frame.msg.view) := by
  rw [← outputOf_eq, buffersAfter_concat, h]
  rfl

/-! ## What is published -/

theorem look_memory {b : Buffers} {frame : Input} (h : (look P X b frame).fault = none) :
    (look P X b frame).memory =
      infer X frame.calls (networkInput X frame.msg.view) b := by
  rw [look] at h ⊢
  cases herror : letterboxError frame.msg.view with
  | some e =>
      rw [herror] at h
      cases h
  | none => rfl

theorem look_run_memory {frames : List Input} : ∀ {b : Buffers},
    (Turns.run (look P X) b frames).fault = none →
      (Turns.run (look P X) b frames).memory = buffersAfter X b frames := by
  induction frames with
  | nil => exact fun _ => rfl
  | cons frame frames ih =>
      intro b h
      cases hf : (look P X b frame).fault with
      | some f =>
          rw [Turns.run_cons_fault hf, hf] at h
          cases h
      | none =>
          rw [Turns.run_cons hf] at h ⊢
          refine (ih h).trans ?_
          rw [look_memory hf]
          rfl

/-- A frame is reported when its letterbox can be used. -/
theorem look_sent {b : Buffers} {frame : Input} {o : Publication}
    (h : o ∈ (look P X b frame).sent) :
    o ∈ (report P X (infer X frame.calls (networkInput X frame.msg.view) b).hostOutput
      frame).1 := by
  rw [look] at h
  cases herror : letterboxError frame.msg.view with
  | some e =>
      rw [herror] at h
      cases h
  | none =>
      rw [herror] at h
      exact h

/-- **Which frame, which output.**  Everything published is the report on one of the frames, from
the output that the inferences up to that frame leave on the host: its own, if all their calls on
that frame come through. -/
theorem published_from {m : Memory} {frames : List Input} {o : Publication}
    (h : o ∈ (Turns.run (process P X) m frames).sent) :
    ∃ before frame after, frames = before ++ frame :: after ∧
      o ∈ (report P X (outputOf X m.buffers (before ++ [frame])) frame).1 ∧
      (frame.calls = {} →
        outputOf X m.buffers (before ++ [frame]) = X.engine (networkInput X frame.msg.view)) := by
  rw [sent_eq] at h
  obtain ⟨before, frame, after, hframes, hfault, ho⟩ := Turns.mem_run h
  refine ⟨before, frame, after, hframes, ?_, outputOf_concat m.buffers before⟩
  rw [← outputOf_eq, buffersAfter_concat, ← look_run_memory hfault]
  exact look_sent ho

/-- The buffers that a frame leaves. -/
theorem process_memory {m : Memory} {frame : Input} (h : (process P X m frame).fault = none) :
    (process P X m frame).memory.buffers =
      infer X frame.calls (networkInput X frame.msg.view) m.buffers := by
  have hlook := process_simulates (P := P) (X := X) m frame
  rw [h] at hlook
  exact (congrArg Turns.Turn.memory hlook).symm.trans
    (look_memory (congrArg Turns.Turn.fault hlook))

/-- The second frame is dark, and the car of the first is published again. -/
theorem published_from_onceExecuted : ∃ array,
    .detections array ∈ (Turns.run (process {} brightPlatform) ⟨Scratch.empty, emptyBuffers⟩
      [onceExecuted 1, onceExecuted 2]).sent ∧
    array.header = (flat 2 false).header ∧ array.detections ≠ [] ∧
    ∃ before frame after, [onceExecuted 1, onceExecuted 2] = before ++ frame :: after ∧
      .detections array ∈
        (report {} brightPlatform (outputOf brightPlatform emptyBuffers (before ++ [frame]))
          frame).1 := by
  let m : Memory := ⟨Scratch.empty, emptyBuffers⟩
  have hfault : (process {} brightPlatform m (onceExecuted 1)).fault = none :=
    (process_fault_iff Rect.meet_intersects stableSort_isSort m ⟨by decide, by decide⟩).mpr
      ⟨by decide, by decide⟩
  have hbright : (1 : ℚ) / 2 < networkInput brightPlatform (flat 1 true).view centre := by
    decide +kernel
  have hout : (infer brightPlatform (onceExecuted 2).calls
      (networkInput brightPlatform (onceExecuted 2).msg.view)
      (process {} brightPlatform m (onceExecuted 1)).memory.buffers).hostOutput =
      uniform (middle true) := by
    have hcalls : (onceExecuted 2).calls = { executed := false } := rfl
    have hengine : brightPlatform.engine (networkInput brightPlatform (flat 1 true).view) =
        uniform (middle true) := congrArg (fun b => uniform (middle b)) (decide_eq_true hbright)
    rw [process_memory hfault, hcalls, ← hengine]
    rfl
  obtain ⟨array, harray, hsent⟩ := process_sends (P := {}) (X := brightPlatform)
    Rect.meet_intersects stableSort_isSort
    (process {} brightPlatform m (onceExecuted 1)).memory (onceExecuted 2) (by decide +kernel)
  rw [hout] at harray
  have hsent : .detections array ∈ (Turns.run (process {} brightPlatform) m
      [onceExecuted 1, onceExecuted 2]).sent := by
    rw [Turns.run_cons hfault]
    exact List.mem_append_right _ (Turns.mem_run_cons hsent)
  obtain ⟨hheader, hrenders⟩ := publishDetections_renders harray
  refine ⟨array, hsent, hheader, fun hnil => ?_, ?_⟩
  · have hlength := hrenders.length_eq
    rw [hnil] at hlength
    exact detectionsOf_ne_nil Rect.meet_intersects stableSort_isSort
      (middle_qualifies 2 false ⟨0, by decide⟩) (List.length_eq_zero_iff.mp hlength)
  · obtain ⟨before, frame, after, hframes, hreport, -⟩ := published_from hsent
    exact ⟨before, frame, after, hframes, hreport⟩

end JetsonPerception.Detector
