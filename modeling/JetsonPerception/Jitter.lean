/-
# Rates and latencies of an uneven stream, and the verdict on them

A real stream is not uniform: its frames come at gaps between a shortest and a longest one.  Then
no rate is that of the stream, but each report lies where it has to:

| | rate |
| :-- | :-- |
| a first report | between `1 / most` and `1 / least + 1 / interval`, for a frame too many |
| a later one, and `deque_hz` | between `1 / most` and `1 / least` |

The test on the target listens to the detector's reports for a while and passes judgement by the
best rate and the best latency (`collect_metrics.py`).  What its verdict says of the stream follows.
-/
import JetsonPerception.Latency
import Mathlib.Data.List.Chain

namespace JetsonPerception.Rates

/-! ## Gaps -/

/-- The next frame comes at such a gap. -/
def Gap (least most a b : ℚ) : Prop := least ≤ b - a ∧ b - a ≤ most

/-- The frames come at such gaps, after one at time `prev`. -/
def Gaps (least most prev : ℚ) (times : List ℚ) : Prop := (prev :: times).IsChain (Gap least most)

variable {least most prev now reportInterval : ℚ} {times : List ℚ} {m : Meter} {surplus : ℕ}

theorem gaps_cons : Gaps least most prev (now :: times) ↔
    Gap least most prev now ∧ Gaps least most now times := List.isChain_cons_cons

/-- A span of so many gaps. -/
def Spans (least most : ℚ) (d : ℕ) (span : ℚ) : Prop := d * least ≤ span ∧ span ≤ d * most

theorem Spans.add {d : ℕ} {span : ℚ} (h : Spans least most d span) {gap : ℚ} (hleast : least ≤ gap)
    (hmost : gap ≤ most) : Spans least most (d + 1) (span + gap) := by
  obtain ⟨hlow, hhigh⟩ := h
  constructor <;> push_cast <;> linarith

/-- So many frames in such a span, of which `surplus` are counted too many. -/
theorem Spans.rate_ge {d : ℕ} {span : ℚ} (h : Spans least most d span) (hspan : 0 < span)
    (hd : 0 < d) (surplus : ℕ) : 1 / most ≤ (d + surplus : ℕ) / span := by
  have hd' : (0 : ℚ) < d := by exact_mod_cast hd
  have hmost : 0 < most := by
    have hhigh := hspan.trans_le h.2
    exact pos_of_mul_pos_right hhigh hd'.le
  rw [div_le_div_iff₀ hmost hspan]
  push_cast
  have hsurplus : (0 : ℚ) ≤ surplus * most := by positivity
  have hhigh := h.2
  linarith

theorem Spans.rate_le {d : ℕ} {span : ℚ} (h : Spans least most d span) (hleast : 0 < least)
    (hspan : 0 < span) (surplus : ℕ) : (d + surplus : ℕ) / span ≤ 1 / least + surplus / span := by
  have hd : (d : ℚ) / span ≤ 1 / least := by
    rw [div_le_div_iff₀ hspan hleast]
    have hlow := h.1
    linarith
  push_cast
  rw [add_div]
  linarith

/-! ## The camera -/

/-- The window so far: it has seen `d` gaps and counted `surplus` frames more than that. -/
structure Paced (least most : ℚ) (m : Meter) (prev : ℚ) (surplus d : ℕ) : Prop where
  started : 0 < m.lastReport
  frames : m.frames = d + surplus
  span : Spans least most d (prev - m.lastReport)

/-- A rate from a window with so much surplus. -/
def Plausible (least most reportInterval : ℚ) (surplus : ℕ) (hz : ℚ) : Prop :=
  1 / most ≤ hz ∧ hz ≤ 1 / least + surplus / reportInterval

/-- A frame is counted, or it ends the window with a plausible rate. -/
theorem Paced.step {d : ℕ} (h : Paced least most m prev surplus d) (hleast : 0 < least)
    (hpos : 0 < reportInterval) (hgap : Gap least most prev now) :
    (∃ m', reportRate reportInterval m now = (m', none) ∧
      Paced least most m' now surplus (d + 1)) ∨
    ∃ m' hz, reportRate reportInterval m now = (m', some hz) ∧
      Plausible least most reportInterval surplus hz ∧ Paced least most m' now 0 0 := by
  have hspans : Spans least most (d + 1) (now - m.lastReport) := by
    have hsum : now - m.lastReport = prev - m.lastReport + (now - prev) := by ring
    rw [hsum]
    exact h.span.add hgap.1 hgap.2
  have hcount : m.frames + 1 = d + 1 + surplus := by
    rw [h.frames]
    omega
  by_cases hlong : now - m.lastReport ≥ reportInterval
  · right
    have hspan : 0 < now - m.lastReport := hpos.trans_le hlong
    refine ⟨⟨0, now⟩, _, reportRate_long h.started.ne' hlong, ⟨?_, ?_⟩, ?_⟩
    · rw [hcount]
      exact hspans.rate_ge hspan (Nat.succ_pos d) surplus
    · rw [hcount]
      refine (hspans.rate_le hleast hspan surplus).trans ?_
      have hsurplus : (surplus : ℚ) / (now - m.lastReport) ≤ surplus / reportInterval :=
        div_le_div_of_nonneg_left (Nat.cast_nonneg _) hpos hlong
      linarith
    · refine ⟨?_, rfl, ?_⟩
      · have hstarted := h.started
        show 0 < now
        linarith
      · show Spans least most 0 (now - now)
        simp [Spans]
  · left
    refine ⟨_, reportRate_short h.started.ne' hlong, h.started, hcount, hspans⟩

/-- What a window with surplus publishes, and what follows it. -/
theorem Paced.published {surplus : ℕ} (hleast : 0 < least) (hpos : 0 < reportInterval) :
    ∀ {times : List ℚ} {m : Meter} {prev : ℚ} {d : ℕ}, Paced least most m prev surplus d →
      Gaps least most prev times →
      (∀ hz ∈ (published (reportRate reportInterval) m times).head?,
        Plausible least most reportInterval surplus hz) ∧
      ∀ hz ∈ (published (reportRate reportInterval) m times).tail,
        Plausible least most reportInterval 0 hz := by
  intro times
  induction times generalizing surplus with
  | nil => exact fun _ _ => ⟨nofun, nofun⟩
  | cons now times ih =>
      intro m prev d h hgaps
      obtain ⟨hgap, hgaps⟩ := gaps_cons.mp hgaps
      rw [Rates.published]
      rcases h.step hleast hpos hgap with ⟨m', hquiet, h'⟩ | ⟨m', hz, hreport, hz_ok, h'⟩
      · rw [hquiet]
        exact ih h' hgaps
      · rw [hreport]
        obtain ⟨hhead, htail⟩ := ih h' hgaps
        refine ⟨fun hz' hmem => ?_, fun hz' hmem => ?_⟩
        · obtain rfl := Option.some.inj hmem
          exact hz_ok
        · have hmem : hz' ∈ Rates.published (reportRate reportInterval) m' times := hmem
          cases hall : Rates.published (reportRate reportInterval) m' times with
          | nil =>
              rw [hall] at hmem
              cases hmem
          | cons first rest =>
              rw [hall] at hmem hhead htail
              rcases List.mem_cons.mp hmem with rfl | hmem
              · exact hhead _ rfl
              · exact htail _ hmem

/-- The first frame starts the clock, and is counted. -/
theorem first_paced (hfirst : 0 < now) : Paced least most ⟨1, now⟩ now 1 0 := by
  refine ⟨hfirst, rfl, ?_⟩
  simp [Spans]

/-- The rates of a stream: the first of them has a frame too many. -/
structure PlausibleRates (least most reportInterval : ℚ) (rates : List ℚ) : Prop where
  first : ∀ hz ∈ rates.head?, Plausible least most reportInterval 1 hz
  later : ∀ hz ∈ rates.tail, Plausible least most reportInterval 0 hz

theorem camera_within (hleast : 0 < least) (hpos : 0 < reportInterval) (hfirst : 0 < now)
    (hgaps : Gaps least most now times) : PlausibleRates least most reportInterval
      (published (reportRate reportInterval) {} (now :: times)) := by
  have hstep : reportRate reportInterval {} now = (⟨1, now⟩, none) := rfl
  have h := (first_paced hfirst).published hleast hpos hgaps
  rw [published, hstep]
  exact ⟨h.1, h.2⟩

/-! ## The detector -/

/-- What the detector publishes over its frames: rates and latencies. -/
def reports (reportInterval : ℚ) (s : Timing) (frames : List (Stamps × ℚ)) : List (ℚ × ℚ) :=
  published (fun s frame => recordTiming reportInterval s frame.1 frame.2) s frames

/-- Its rates are those the camera would publish. -/
theorem reports_rates (hpos : 0 < reportInterval) (frames : List (Stamps × ℚ)) : ∀ s : Timing,
    (reports reportInterval s frames).map Prod.fst =
      published (reportRate reportInterval) s.meter (frames.map Prod.snd) := by
  induction frames with
  | nil => exact fun _ => rfl
  | cons frame frames ih =>
      intro s
      have hstep := recordTiming_meter hpos s frame.1 frame.2
      have hrest := ih (recordTiming reportInterval s frame.1 frame.2).1
      rw [reports, published, List.map_append, List.map_cons, published, ← hstep]
      rw [reports] at hrest
      rw [hrest]
      cases (recordTiming reportInterval s frame.1 frame.2).2 <;> rfl

/-- What each stage of a frame takes, from below and from above. -/
def Takes (low high : Stage → ℚ) (t : Stamps) : Prop :=
  ∀ st : Stage, low st ≤ st.ms t ∧ st.ms t ≤ high st

/-- Every latency is within the sums of what the stages take. -/
theorem reports_latencies {low high : Stage → ℚ} {frames : List (Stamps × ℚ)} :
    ∀ {s : Timing} {w : List Stamps}, Holds s w → (∀ t ∈ w, Takes low high t) →
      (∀ frame ∈ frames, Takes low high frame.1) → ∀ r ∈ reports reportInterval s frames,
        overStages low ≤ r.2 ∧ r.2 ≤ overStages high := by
  induction frames with
  | nil =>
      intro s w _ _ _ r hr
      cases hr
  | cons frame frames ih =>
      intro s w hholds hw hframes r hr
      have hframe := hframes frame List.mem_cons_self
      have hrest : ∀ frame ∈ frames, Takes low high frame.1 :=
        fun frame hmem => hframes frame (List.mem_cons_of_mem _ hmem)
      have hw' : ∀ t ∈ w ++ [frame.1], Takes low high t := by
        intro t ht
        rcases List.mem_append.mp ht with ht | ht
        · exact hw t ht
        · rw [List.mem_singleton.mp ht]
          exact hframe
      rw [reports, published] at hr
      rcases recordTiming_cases hholds reportInterval frame.2 frame.1 with
        ⟨hnone, hholds'⟩ | ⟨rate, hsome, hholds'⟩
      · rw [hnone] at hr
        exact ih hholds' hw' hrest r hr
      · rw [hsome] at hr
        rcases List.mem_cons.mp hr with rfl | hr
        · have hreported := reported_medians (w := w ++ [frame.1]) (by simp)
          exact ⟨hreported.above low fun st t ht => (hw' t ht st).1,
            hreported.below high fun st t ht => (hw' t ht st).2⟩
        · exact ih hholds' (fun t ht => absurd ht List.not_mem_nil) hrest r hr

/-! ## The console -/

theorem gaps_span : ∀ {times : List ℚ} {prev : ℚ}, Gaps least most prev times →
    Spans least most times.length (times.getLastD prev - prev) := by
  intro times
  induction times with
  | nil =>
      intro prev _
      simp [Spans]
  | cons now times ih =>
      intro prev h
      obtain ⟨hgap, hgaps⟩ := gaps_cons.mp h
      have hsum : (now :: times).getLastD prev - prev =
          times.getLastD now - now + (now - prev) := by
        rw [List.getLastD_cons]
        ring
      rw [hsum]
      exact (ih hgaps).add hgap.1 hgap.2

/-- Whatever the deque holds of the stream. -/
theorem dequeHz_within (hleast : 0 < least) {first second : ℚ} {rest : List ℚ}
    (h : Gaps least most first (second :: rest)) (reportInterval : ℚ) :
    Plausible least most reportInterval 0 (dequeHz (first :: second :: rest)) := by
  have hspans := gaps_span h
  have hlast : (second :: rest).getLastD first = (second :: rest).getLastD 0 := by
    rw [List.getLastD_cons, List.getLastD_cons]
  rw [hlast] at hspans
  have hlength : (0 : ℚ) < (second :: rest).length := by
    exact_mod_cast Nat.succ_pos rest.length
  have hspan : 0 < (second :: rest).getLastD 0 - first := (mul_pos hlength hleast).trans_le hspans.1
  have hhz : dequeHz (first :: second :: rest) =
      ((second :: rest).length + 0 : ℕ) / ((second :: rest).getLastD 0 - first) := by
    rw [dequeHz]
    exact if_pos hspan
  rw [hhz]
  refine ⟨hspans.rate_ge hspan (Nat.succ_pos _) 0, (hspans.rate_le hleast hspan 0).trans ?_⟩
  simp

/-! ## All three, and the verdict -/

/-- A run of the detector on a stream: when it reports, at what gaps its frames come, from the
first on, and how long each stage takes. -/
structure Steady (reportInterval least most : ℚ) (low high : Stage → ℚ) (first : Stamps × ℚ)
    (frames : List (Stamps × ℚ)) : Prop where
  interval_pos : 0 < reportInterval
  least_pos : 0 < least
  start_pos : 0 < first.2
  gaps : Gaps least most first.2 (frames.map Prod.snd)
  takes : ∀ frame ∈ first :: frames, Takes low high frame.1

variable {low high : Stage → ℚ} {first : Stamps × ℚ} {frames : List (Stamps × ℚ)}

theorem Steady.rates (h : Steady reportInterval least most low high first frames) :
    PlausibleRates least most reportInterval
      ((reports reportInterval {} (first :: frames)).map Prod.fst) := by
  rw [reports_rates h.interval_pos]
  exact camera_within h.least_pos h.interval_pos h.start_pos h.gaps

theorem Steady.latencies (h : Steady reportInterval least most low high first frames) :
    ∀ r ∈ reports reportInterval {} (first :: frames),
      overStages low ≤ r.2 ∧ r.2 ≤ overStages high :=
  reports_latencies (w := []) ⟨rfl, rfl, rfl, rfl⟩ nofun h.takes

/-- Every rate is plausible for a first report. -/
theorem PlausibleRates.all {rates : List ℚ} (h : PlausibleRates least most reportInterval rates)
    (hpos : 0 < reportInterval) {hz : ℚ} (hmem : hz ∈ rates) :
    Plausible least most reportInterval 1 hz := by
  cases rates with
  | nil => cases hmem
  | cons first rest =>
      rcases List.mem_cons.mp hmem with rfl | hmem
      · exact h.first _ rfl
      · obtain ⟨hlow, hhigh⟩ := h.later hz hmem
        refine ⟨hlow, hhigh.trans ?_⟩
        have hone : (0 : ℚ) ≤ 1 / reportInterval := by positivity
        simpa using hone

/-- **What an uneven stream is reported as**, by the camera, the detector and the console. -/
theorem rates_within (h : Steady reportInterval least most low high first frames) :
    PlausibleRates least most reportInterval (published (reportRate reportInterval) {}
      (first.2 :: frames.map Prod.snd)) ∧
    PlausibleRates least most reportInterval
      ((reports reportInterval {} (first :: frames)).map Prod.fst) ∧
    ∀ a b rest, a :: b :: rest <:+: first.2 :: frames.map Prod.snd →
      1 / most ≤ dequeHz (a :: b :: rest) ∧ dequeHz (a :: b :: rest) ≤ 1 / least := by
  refine ⟨camera_within h.least_pos h.interval_pos h.start_pos h.gaps, h.rates, ?_⟩
  intro a b rest hsub
  have hgaps : Gaps least most a (b :: rest) := h.gaps.infix hsub
  obtain ⟨hlow, hhigh⟩ := dequeHz_within h.least_pos hgaps reportInterval
  refine ⟨hlow, ?_⟩
  simpa using hhigh

/-- Three frames, at one and at two seconds after each other. -/
def uneasy : List (Stamps × ℚ) := [(took 1 0 1 0, 2), (took 0 1 1 0, 4)]

theorem uneasy_steady : Steady 1 1 2 (fun _ => 0) (fun _ => 1) (took 1 1 0 0, 1) uneasy where
  interval_pos := by norm_num
  least_pos := by norm_num
  start_pos := by norm_num
  gaps := by norm_num [Gaps, Gap, uneasy]
  takes frame hframe st := by
    simp only [uneasy, List.mem_cons, List.not_mem_nil, or_false] at hframe
    rcases hframe with rfl | rfl | rfl <;> cases st <;> norm_num [Stage.ms, took, ms]

theorem rates_within_uneasy : 1 / 2 ≤ dequeHz [1, 2, 4] ∧ dequeHz [1, 2, 4] ≤ 1 / 1 :=
  (rates_within uneasy_steady).2.2 1 2 [4] (List.infix_refl _)

/-- `main` of `collect_metrics.py`, from the end of its loop: the exit code. -/
def collect (rates latencies : List ℚ) (minRate maxLatency : ℚ) : ℕ :=
  match rates.max?, latencies.min? with
  | some bestRate, some bestLatency =>
      if bestRate ≥ minRate ∧ bestLatency ≤ maxLatency then 0 else 1
  | _, _ => 1

/-- **The verdict of the test on the target**, from whichever reports it has heard: it fails no
detector that is fast enough on every frame, and it passes none whose frames come too far apart,
by more than the one frame that a first report counts too many, or one of whose stages is too
slow. -/
theorem verdict_within (h : Steady reportInterval least most low high first frames)
    {rates latencies : List ℚ} {minRate maxLatency : ℚ}
    (hrates : rates ⊆ (reports reportInterval {} (first :: frames)).map Prod.fst)
    (hlatencies : latencies ⊆ (reports reportInterval {} (first :: frames)).map Prod.snd) :
    (collect rates latencies minRate maxLatency = 0 →
      minRate ≤ 1 / least + 1 / reportInterval ∧ overStages low ≤ maxLatency) ∧
    (rates ≠ [] → latencies ≠ [] → minRate ≤ 1 / most → overStages high ≤ maxLatency →
      collect rates latencies minRate maxLatency = 0) := by
  have hrate : ∀ hz ∈ rates, Plausible least most reportInterval 1 hz :=
    fun hz hmem => h.rates.all h.interval_pos (hrates hmem)
  have hlatency : ∀ l ∈ latencies, overStages low ≤ l ∧ l ≤ overStages high := by
    intro l hmem
    obtain ⟨r, hr, rfl⟩ := List.mem_map.mp (hlatencies hmem)
    exact h.latencies r hr
  rw [collect]
  cases hmax : rates.max? with
  | none =>
      refine ⟨nofun, fun hne => ?_⟩
      exact absurd (List.max?_eq_none_iff.mp hmax) hne
  | some bestRate =>
      cases hmin : latencies.min? with
      | none =>
          refine ⟨nofun, fun _ hne => ?_⟩
          exact absurd (List.min?_eq_none_iff.mp hmin) hne
      | some bestLatency =>
          obtain ⟨hlow, hhigh⟩ := hrate _ (List.max?_mem hmax)
          obtain ⟨hlow', hhigh'⟩ := hlatency _ (List.min?_mem hmin)
          rw [Nat.cast_one] at hhigh
          constructor
          · intro hpass
            by_cases hok : bestRate ≥ minRate ∧ bestLatency ≤ maxLatency
            · exact ⟨hok.1.trans hhigh, hlow'.trans hok.2⟩
            · simp [hok] at hpass
          · intro _ _ hmin hmax
            exact if_pos ⟨hmin.trans hlow, hhigh'.trans hmax⟩

theorem reports_uneasy : reports 1 {} ((took 1 1 0 0, 1) :: uneasy) = [(2, 3), (1 / 2, 2)] := by
  norm_num [reports, published, uneasy, took, recordTiming, ms, med, List.mergeSort,
    List.MergeSort.Internal.splitInTwo, List.merge, -List.isEmpty_iff]

theorem verdict_within_uneasy : collect [1 / 2] [2] (1 / 2) 4 = 0 := by
  refine (verdict_within uneasy_steady ?_ ?_).2 (by simp) (by simp) (by norm_num) ?_
  · simp [reports_uneasy]
  · simp [reports_uneasy]
  · norm_num [overStages]

end JetsonPerception.Rates
