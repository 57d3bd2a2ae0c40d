/-
# The latency that `record_timing` publishes

`~/latency_ms` is the sum of four medians, one for each stage of `process()`, and each may come
from a different frame.  It is made of recorded stage durations (`Reported.attained`), but it need
not be a duration of any frame: three frames of 2 ms each can be published as 3 ms
(`latency_above`).

How far off it can be has a bound on one side only.  It is at most twice the longest of the
frames, since at least half of them take each stage's median, and when the frames of a window
compare the same way in all four stages one of them took it exactly.
-/
import JetsonPerception.Lib.Median
import JetsonPerception.Rates
import Mathlib.Algebra.BigOperators.Ring.List

namespace JetsonPerception.Rates

/-! ## Frames and windows -/

/-- What `process()` does to a frame. -/
inductive Stage where
  | pre | infer | post | out

/-- How long a stage took, in milliseconds. -/
def Stage.ms : Stage → Stamps → ℚ
  | .pre, t => Rates.ms t.t0 t.t1
  | .infer, t => Rates.ms t.t1 t.t2
  | .post, t => Rates.ms t.t2 t.t3
  | .out, t => Rates.ms t.t3 t.t4

/-- How long the frame took from end to end. -/
def Stamps.endToEnd (t : Stamps) : ℚ := ms t.t0 t.t4

/-- The clock did not run backwards. -/
def Stamps.InOrder (t : Stamps) : Prop := t.t0 ≤ t.t1 ∧ t.t1 ≤ t.t2 ∧ t.t2 ≤ t.t3 ∧ t.t3 ≤ t.t4

/-- The sum over the four stages. -/
def overStages (f : Stage → ℚ) : ℚ := f .pre + f .infer + f .post + f .out

/-- One call of `record_timing`, with the frames recorded since the previous report. -/
def record (reportInterval : ℚ) (s : Timing × List Stamps) (frame : Stamps × ℚ) :
    Timing × List Stamps :=
  match recordTiming reportInterval s.1 frame.1 frame.2 with
  | (timing, some _) => (timing, [])
  | (timing, none) => (timing, s.2 ++ [frame.1])

/-- What a sequence of frames, each with the time of its call, leaves behind. -/
def recorded (reportInterval : ℚ) (frames : List (Stamps × ℚ)) : Timing × List Stamps :=
  frames.foldl (record reportInterval) ({}, [])

/-- The frames of a report that comes with the next frame. -/
def window (reportInterval : ℚ) (frames : List (Stamps × ℚ)) (t : Stamps) : List Stamps :=
  (recorded reportInterval frames).2 ++ [t]

/-- The four lists hold the durations of the frames of the window. -/
structure Holds (s : Timing) (w : List Stamps) : Prop where
  pre : s.preMs = w.map (Stage.ms .pre)
  infer : s.inferMs = w.map (Stage.ms .infer)
  post : s.postMs = w.map (Stage.ms .post)
  out : s.outMs = w.map (Stage.ms .out)

variable {reportInterval now rate latency : ℚ} {s : Timing} {t : Stamps} {w : List Stamps}

/-- The median of a stage over a window. -/
def stageMed (w : List Stamps) (st : Stage) : ℚ := med (w.map st.ms)

theorem overStages_ms (t : Stamps) : overStages (fun st => st.ms t) = t.endToEnd := by
  simp only [overStages, Stage.ms, Stamps.endToEnd, ms]
  ring

theorem overStages_le {f g : Stage → ℚ} (h : ∀ st, f st ≤ g st) : overStages f ≤ overStages g := by
  have hpre := h .pre
  have hinfer := h .infer
  have hpost := h .post
  have hout := h .out
  rw [overStages, overStages]
  linarith

/-- A call of `record_timing` without a report keeps the window, with its frame; one with a report
publishes the medians of that and starts anew. -/
theorem recordTiming_cases (h : Holds s w) (reportInterval now : ℚ) (t : Stamps) :
    ((recordTiming reportInterval s t now).2 = none ∧
      Holds (recordTiming reportInterval s t now).1 (w ++ [t])) ∨
    ∃ rate, (recordTiming reportInterval s t now).2 =
        some (rate, overStages (stageMed (w ++ [t]))) ∧
      Holds (recordTiming reportInterval s t now).1 [] := by
  obtain ⟨preMs, inferMs, postMs, outMs, frames, lastReport⟩ := s
  obtain ⟨rfl, rfl, rfl, rfl⟩ := h
  have hmap : ∀ st : Stage, (w ++ [t]).map st.ms = w.map st.ms ++ [st.ms t] := fun st =>
    List.map_append
  have hholds : ∀ last, Holds ⟨w.map (Stage.ms .pre) ++ [ms t.t0 t.t1],
      w.map (Stage.ms .infer) ++ [ms t.t1 t.t2], w.map (Stage.ms .post) ++ [ms t.t2 t.t3],
      w.map (Stage.ms .out) ++ [ms t.t3 t.t4], frames + 1, last⟩ (w ++ [t]) := fun last =>
    ⟨(hmap .pre).symm, (hmap .infer).symm, (hmap .post).symm, (hmap .out).symm⟩
  simp only [overStages, stageMed, hmap]
  by_cases hlast : lastReport = 0
  · by_cases hshort : now - now < reportInterval
    · left
      simp only [recordTiming, hlast, if_true, hshort]
      exact ⟨trivial, hholds now⟩
    · right
      simp only [recordTiming, hlast, if_true, hshort, if_false]
      exact ⟨_, rfl, rfl, rfl, rfl, rfl⟩
  · by_cases hshort : now - lastReport < reportInterval
    · left
      simp only [recordTiming, hlast, if_false, hshort, if_true]
      exact ⟨trivial, hholds lastReport⟩
    · right
      simp only [recordTiming, hlast, hshort, if_false]
      exact ⟨_, rfl, rfl, rfl, rfl, rfl⟩

/-- Along every sequence of frames the lists hold the window. -/
theorem holds_recorded (reportInterval : ℚ) (frames : List (Stamps × ℚ)) :
    Holds (recorded reportInterval frames).1 (recorded reportInterval frames).2 := by
  induction frames using List.reverseRecOn with
  | nil => exact ⟨rfl, rfl, rfl, rfl⟩
  | append_singleton frames frame ih =>
      obtain ⟨t, now⟩ := frame
      rw [recorded, List.foldl_append]
      show Holds (record reportInterval (recorded reportInterval frames) (t, now)).1
        (record reportInterval (recorded reportInterval frames) (t, now)).2
      rcases recordTiming_cases ih reportInterval now t with ⟨hnone, hholds⟩ | ⟨rate, hsome, hholds⟩
      · rw [record]
        split
        case h_1 heq => simp [heq] at hnone
        case h_2 heq => simpa [heq] using hholds
      · rw [record]
        split
        case h_1 heq => simpa [heq] using hholds
        case h_2 heq => simp [heq] at hsome

/-! ## Medians of a window -/

theorem med_eq (v : List ℚ) : med v = Median.upper v 0 := by
  cases v with
  | nil => simp [med, Median.upper, Median.sorted]
  | cons a v => rfl

/-- The median of a stage is what that stage took in some frame. -/
theorem stageMed_mem (hw : w ≠ []) (st : Stage) : ∃ t ∈ w, stageMed w st = st.ms t := by
  have hmem : Median.upper (w.map st.ms) 0 ∈ w.map st.ms :=
    Median.upper_mem (by simpa using hw) 0
  obtain ⟨t, ht, hmed⟩ := List.mem_map.mp hmem
  exact ⟨t, ht, by rw [stageMed, med_eq, hmed]⟩

theorem Stage.ms_nonneg (ht : t.InOrder) (st : Stage) : 0 ≤ st.ms t := by
  obtain ⟨h01, h12, h23, h34⟩ := ht
  cases st <;> simp only [Stage.ms, Rates.ms] <;> linarith

/-- The sum over the stages, frame by frame. -/
theorem sum_overStages (w : List Stamps) :
    overStages (fun st => (w.map st.ms).sum) = (w.map Stamps.endToEnd).sum := by
  induction w with
  | nil => simp [overStages]
  | cons t w ih =>
      have ht := overStages_ms t
      simp only [overStages, List.map_cons, List.sum_cons] at ih ht ⊢
      linarith

/-- A window of frames with their stamps in order has one that took half the medians. -/
theorem exists_half_le (hw : w ≠ []) (hord : ∀ t ∈ w, t.InOrder) :
    ∃ t ∈ w, overStages (stageMed w) ≤ 2 * t.endToEnd := by
  have hstage : ∀ st : Stage, w.length * stageMed w st ≤ 2 * (w.map st.ms).sum := by
    intro st
    have hnonneg : ∀ a ∈ w.map st.ms, 0 ≤ a := by
      intro a ha
      obtain ⟨t, ht, rfl⟩ := List.mem_map.mp ha
      exact st.ms_nonneg (hord t ht)
    have hle := Median.length_mul_upper_le hnonneg 0 (by simpa using hw)
    rwa [List.length_map, ← med_eq] at hle
  have hall := overStages_le hstage
  have hsum : (w.map fun _ => overStages (stageMed w)).sum ≤
      (w.map fun t => 2 * t.endToEnd).sum := by
    rw [List.sum_map_mul_left, ← sum_overStages]
    simp only [List.map_const', List.sum_replicate, nsmul_eq_mul]
    simp only [overStages] at hall ⊢
    linarith
  exact List.exists_le_of_sum_le hw _ _ hsum

/-- Any two frames of the window compare the same way in all four stages. -/
def Alike (w : List Stamps) : Prop :=
  ∀ a ∈ w, ∀ b ∈ w, (∀ st : Stage, st.ms a ≤ st.ms b) ∨ ∀ st : Stage, st.ms b ≤ st.ms a

/-- In a window of such frames, one took the median in every stage. -/
theorem Alike.exists_median (halike : Alike w) (hw : w ≠ []) :
    ∃ t ∈ w, ∀ st : Stage, stageMed w st = st.ms t := by
  let l := w.mergeSort fun a b => decide (a.endToEnd ≤ b.endToEnd)
  have hperm : l.Perm w := List.mergeSort_perm w _
  have hsorted : l.Pairwise fun a b => a.endToEnd ≤ b.endToEnd := by
    refine (List.pairwise_mergeSort ?_ ?_ w).imp (by simp)
    · intro a b c hab hbc
      simp only [decide_eq_true_eq] at *
      exact le_trans hab hbc
    · intro a b
      simpa using le_total a.endToEnd b.endToEnd
  -- sorted by the end-to-end duration is sorted in every stage
  have hstages : l.Pairwise fun a b => ∀ st : Stage, st.ms a ≤ st.ms b := by
    refine hsorted.imp_of_mem fun {a b} ha hb hle st => ?_
    rcases halike a (hperm.mem_iff.mp ha) b (hperm.mem_iff.mp hb) with hab | hba
    · exact hab st
    · have hpre := hba .pre
      have hinfer := hba .infer
      have hpost := hba .post
      have hout := hba .out
      rw [← overStages_ms, ← overStages_ms, overStages, overStages] at hle
      cases st <;> linarith
  have hlt : l.length / 2 < l.length := by
    have hpos := List.length_pos_iff.mpr hw
    rw [hperm.length_eq]
    omega
  refine ⟨l.get ⟨l.length / 2, hlt⟩, hperm.mem_iff.mp (List.get_mem _ _), fun st => ?_⟩
  have hstage : (l.map st.ms).Pairwise (· ≤ ·) :=
    List.pairwise_map.mpr (hstages.imp fun h => h st)
  rw [stageMed, med_eq, ← Median.upper_perm (hperm.map st.ms) 0]
  exact Median.upper_map (k := ⟨l.length / 2, hlt⟩) hstage rfl 0

/-! ## What is published -/

/-- What a latency published for a window of frames says about them. -/
structure Reported (w : List Stamps) (latency : ℚ) : Prop where
  medians : latency = overStages fun st => med (w.map st.ms)
  attained : ∃ frame : Stage → Stamps, (∀ st, frame st ∈ w) ∧
    latency = overStages fun st => st.ms (frame st)
  above : ∀ least : Stage → ℚ, (∀ st, ∀ t ∈ w, least st ≤ st.ms t) → overStages least ≤ latency
  below : ∀ most : Stage → ℚ, (∀ st, ∀ t ∈ w, st.ms t ≤ most st) → latency ≤ overStages most
  twice : (∀ t ∈ w, t.InOrder) → ∃ t ∈ w, latency ≤ 2 * t.endToEnd
  alike : Alike w → ∃ t ∈ w, latency = t.endToEnd

theorem reported_medians (hw : w ≠ []) : Reported w (overStages (stageMed w)) := by
  choose frame hmem hmed using fun st => stageMed_mem hw st
  have hattained : overStages (stageMed w) = overStages fun st => st.ms (frame st) :=
    congrArg overStages (funext hmed)
  constructor
  case medians => rfl
  case attained => exact ⟨frame, hmem, hattained⟩
  case above =>
      intro least hleast
      rw [hattained]
      exact overStages_le fun st => hleast st _ (hmem st)
  case below =>
      intro most hmost
      rw [hattained]
      exact overStages_le fun st => hmost st _ (hmem st)
  case twice => exact exists_half_le hw
  case alike =>
      intro halike
      obtain ⟨t, ht, hall⟩ := halike.exists_median hw
      exact ⟨t, ht, by rw [← overStages_ms, funext hall]⟩

/-- **The reported latency** is made of the medians of the four stages over the frames recorded
since the previous report: within what the stages took, at most twice what a frame took, and what
one frame took when the frames are alike. -/
theorem latency_reported {frames : List (Stamps × ℚ)}
    (h : (recordTiming reportInterval (recorded reportInterval frames).1 t now).2 =
      some (rate, latency)) : Reported (window reportInterval frames t) latency := by
  rcases recordTiming_cases (holds_recorded reportInterval frames) reportInterval now t with
    ⟨hnone, -⟩ | ⟨rate', hsome, -⟩
  · rw [hnone] at h
    cases h
  · rw [hsome] at h
    cases h
    exact reported_medians (List.append_ne_nil_of_right_ne_nil _ (List.cons_ne_nil t []))

/-- A frame that starts at 0 and takes so many milliseconds in each stage. -/
def took (pre infer post out : ℚ) : Stamps where
  t1 := pre / 1000
  t2 := (pre + infer) / 1000
  t3 := (pre + infer + post) / 1000
  t4 := (pre + infer + post + out) / 1000

/-- Two frames of 2 ms, in different stages. -/
def uneven : List (Stamps × ℚ) := [(took 1 1 0 0, 1), (took 1 0 1 0, 2)]

theorem uneven_third :
    (recordTiming 5 (recorded 5 uneven).1 (took 0 1 1 0) 6).2 = some (3 / 5, 3) := by
  norm_num [recorded, record, uneven, took, recordTiming, ms, med, List.mergeSort,
    List.MergeSort.Internal.splitInTwo, List.merge]

theorem latency_reported_uneven : Reported (window 5 uneven (took 0 1 1 0)) 3 :=
  latency_reported uneven_third

/-- Every frame took 2 ms, and 3 ms are published. -/
theorem latency_above : ¬ ∀ reportInterval frames t now rate latency,
    (recordTiming reportInterval (recorded reportInterval frames).1 t now).2 =
      some (rate, latency) →
    (∃ a ∈ window reportInterval frames t, a.endToEnd ≤ latency) ∧
      ∃ b ∈ window reportInterval frames t, latency ≤ b.endToEnd := by
  intro hall
  obtain ⟨-, b, hb, hle⟩ := hall 5 uneven (took 0 1 1 0) 6 _ _ uneven_third
  have hwindow : window 5 uneven (took 0 1 1 0) = [took 1 1 0 0, took 1 0 1 0, took 0 1 1 0] := by
    norm_num [window, recorded, record, uneven, recordTiming]
  have htwo : b.endToEnd = 2 := by
    rw [hwindow] at hb
    simp only [List.mem_cons, List.not_mem_nil, or_false] at hb
    rcases hb with rfl | rfl | rfl <;> norm_num [Stamps.endToEnd, took, ms]
  rw [htwo] at hle
  exact absurd hle (by norm_num)

end JetsonPerception.Rates
