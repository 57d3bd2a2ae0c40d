/-
# The three rate estimators on a uniform stream

`report_rate` of the camera, `record_timing` of the detector and `deque_hz` of the console, in
exact arithmetic, each fed frames that are exactly one period apart.

`deque_hz` divides intervals by their span.  The other two divide the frames counted since the
last report by the time since then.  That is the same once a window starts at a report; the first
window starts at a frame that is counted too, so it counts one frame more than it has intervals
(`Counting`).  It is the first report, and no other, that is wrong (`rates_read`), and it is too
high (`first_report_high`).
-/
import Mathlib.Algebra.Order.Field.Rat
import Mathlib.Tactic.FieldSimp
import Mathlib.Tactic.Linarith
import Mathlib.Tactic.NormNum
import Mathlib.Tactic.Positivity
import Mathlib.Tactic.Ring

namespace JetsonPerception.Rates

/-! ## The camera -/

/-- `frames_since_report_` and `last_report_`. -/
structure Meter where
  frames : ℕ := 0
  lastReport : ℚ := 0
  deriving DecidableEq

/-- `ArgusCameraNode::report_rate`: the rate is what it publishes. -/
def reportRate (reportInterval : ℚ) (m : Meter) (current : ℚ) : Meter × Option ℚ :=
  let m := { m with frames := m.frames + 1 }
  if m.lastReport = 0 then ({ m with lastReport := current }, none)
  else
    let elapsed := current - m.lastReport
    if elapsed ≥ reportInterval then
      let hz := m.frames / elapsed
      ({ frames := 0, lastReport := current }, some hz)
    else (m, none)

/-! ## The detector -/

/-- The five time stamps of one frame. -/
structure Stamps where
  t0 : ℚ := 0
  t1 : ℚ := 0
  t2 : ℚ := 0
  t3 : ℚ := 0
  t4 : ℚ := 0

structure Timing where
  preMs : List ℚ := []
  inferMs : List ℚ := []
  postMs : List ℚ := []
  outMs : List ℚ := []
  frames : ℕ := 0
  lastReport : ℚ := 0

def ms (a b : ℚ) : ℚ := (b - a) * 1000

/-- The median, `std::nth_element` at `v.size() / 2`. -/
def med (v : List ℚ) : ℚ :=
  if v.isEmpty then 0 else (v.mergeSort fun a b => decide (a ≤ b)).getD (v.length / 2) 0

/-- `TrtDetectorNode::record_timing`: the pair is the rate and the latency it publishes. -/
def recordTiming (reportInterval : ℚ) (s : Timing) (t : Stamps) (now : ℚ) :
    Timing × Option (ℚ × ℚ) :=
  let s := { s with
    preMs := s.preMs ++ [ms t.t0 t.t1]
    inferMs := s.inferMs ++ [ms t.t1 t.t2]
    postMs := s.postMs ++ [ms t.t2 t.t3]
    outMs := s.outMs ++ [ms t.t3 t.t4]
    frames := s.frames + 1 }
  let s := if s.lastReport = 0 then { s with lastReport := now } else s
  let elapsed := now - s.lastReport
  if elapsed < reportInterval then (s, none)
  else
    let total := med s.preMs + med s.inferMs + med s.postMs + med s.outMs
    ({ lastReport := now }, some (s.frames / elapsed, total))

/-- What the two have in common. -/
def Timing.meter (s : Timing) : Meter := ⟨s.frames, s.lastReport⟩

/-- The detector looks at the interval in the very call that starts its clock, where no time has
elapsed; for a positive interval it counts as the camera does. -/
theorem recordTiming_meter {reportInterval : ℚ} (hpos : 0 < reportInterval) (s : Timing)
    (t : Stamps) (now : ℚ) :
    ((recordTiming reportInterval s t now).1.meter,
      (recordTiming reportInterval s t now).2.map Prod.fst) =
      reportRate reportInterval s.meter now := by
  by_cases hlast : s.lastReport = 0
  · simp [recordTiming, reportRate, Timing.meter, hlast, hpos]
  · by_cases hshort : now - s.lastReport < reportInterval
    · simp [recordTiming, reportRate, Timing.meter, hlast, hshort]
    · simp [recordTiming, reportRate, Timing.meter, hlast, hshort, not_lt.mp hshort]

/-! ## The console -/

/-- `deque_hz`. -/
def dequeHz : List ℚ → ℚ
  | [] | [_] => 0
  | first :: second :: rest =>
      let span := (second :: rest).getLastD 0 - first
      if span > 0 then (rest.length + 1 : ℕ) / span else 0

/-! ## A uniform stream -/

/-- Frames at `start`, `start + period`, `start + 2 * period`, … -/
structure Stream where
  start : ℚ
  period : ℚ
  start_nonneg : 0 ≤ start
  period_pos : 0 < period

/-- The time of a frame. -/
def Stream.time (s : Stream) (k : ℕ) : ℚ := s.start + k * s.period

/-- The true rate. -/
def Stream.rate (s : Stream) : ℚ := 1 / s.period

/-- The times of `n` frames from the `k`-th on. -/
def Stream.window (s : Stream) (k n : ℕ) : List ℚ := (List.range' k n).map s.time

/-- What is published over a list of frames. -/
def published {σ ι ρ : Type} (step : σ → ι → σ × Option ρ) : σ → List ι → List ρ
  | _, [] => []
  | s, i :: is => (step s i).2.toList ++ published step (step s i).1 is

/-- The rates the camera publishes over the first `n` frames. -/
def cameraRates (s : Stream) (reportInterval : ℚ) (n : ℕ) : List ℚ :=
  published (reportRate reportInterval) {} (s.window 0 n)

/-- The rates the detector publishes over the first `n` frames. -/
def detectorRates (s : Stream) (reportInterval : ℚ) (stamps : ℕ → Stamps) (n : ℕ) : List ℚ :=
  (published (fun st k => recordTiming reportInterval st (stamps k) (s.time k)) {}
    (List.range' 0 n)).map Prod.fst

variable {s : Stream} {reportInterval : ℚ}

/-- The detector's rates are the camera's. -/
theorem detectorRates_eq (hpos : 0 < reportInterval) (stamps : ℕ → Stamps) (n : ℕ) :
    detectorRates s reportInterval stamps n = cameraRates s reportInterval n := by
  have hall : ∀ (is : List ℕ) (st : Timing),
      (published (fun st k => recordTiming reportInterval st (stamps k) (s.time k)) st is).map
        Prod.fst = published (reportRate reportInterval) st.meter (is.map s.time) := by
    intro is
    induction is with
    | nil => intro st; rfl
    | cons k is ih =>
        intro st
        have hstep := recordTiming_meter hpos st (stamps k) (s.time k)
        rw [List.map_cons, published, published, ← hstep, List.map_append, ih]
        cases (recordTiming reportInterval st (stamps k) (s.time k)).2 <;> rfl
  exact hall _ _

/-! ## Windows -/

/-- Before frame `i`: the window started at frame `k`, and has counted `surplus` more frames than
the intervals it has seen. -/
def Counting (s : Stream) (i surplus : ℕ) (m : Meter) : Prop :=
  ∃ k < i, m.lastReport = s.time k ∧ 0 < m.lastReport ∧ m.frames + k + 1 = i + surplus

theorem time_sub (s : Stream) (i k : ℕ) : s.time i - s.time k = (i - k) * s.period := by
  rw [Stream.time, Stream.time]
  ring

theorem time_pos {k : ℕ} (h : 0 < k) : 0 < s.time k := by
  have hstart := s.start_nonneg
  have hperiod := s.period_pos
  rw [Stream.time]
  positivity

theorem reportRate_long {m : Meter} {now : ℚ} (hlast : m.lastReport ≠ 0)
    (hlong : now - m.lastReport ≥ reportInterval) : reportRate reportInterval m now =
      (⟨0, now⟩, some ((m.frames + 1 : ℕ) / (now - m.lastReport))) := by
  simp only [reportRate, hlast, if_false, hlong, if_true]

theorem reportRate_short {m : Meter} {now : ℚ} (hlast : m.lastReport ≠ 0)
    (hshort : ¬ now - m.lastReport ≥ reportInterval) : reportRate reportInterval m now =
      (⟨m.frames + 1, m.lastReport⟩, none) := by
  simp only [reportRate, hlast, if_false, hshort]

/-- A window of `d` intervals that counted `surplus` frames too many. -/
def reading (s : Stream) (surplus d : ℕ) : ℚ := (d + surplus : ℕ) / (d * s.period)

/-- A frame in a window: it is counted, or it ends the window with a report. -/
theorem Counting.step (reportInterval : ℚ) {i surplus : ℕ} {m : Meter}
    (h : Counting s i surplus m) :
    (∃ m', reportRate reportInterval m (s.time i) = (m', none) ∧
      Counting s (i + 1) surplus m') ∨
    ∃ m' d, 0 < d ∧ reportRate reportInterval m (s.time i) =
      (m', some (reading s surplus d)) ∧ Counting s (i + 1) 0 m' := by
  obtain ⟨k, hk, hlast, hpos, hframes⟩ := h
  by_cases hlong : s.time i - m.lastReport ≥ reportInterval
  · right
    obtain ⟨d, rfl⟩ := Nat.exists_eq_add_of_lt hk
    have hcount : m.frames + 1 = d + 1 + surplus := by omega
    have helapsed : s.time (k + d + 1) - m.lastReport = (d + 1 : ℕ) * s.period := by
      rw [hlast, time_sub]
      push_cast
      ring
    refine ⟨⟨0, s.time (k + d + 1)⟩, d + 1, Nat.succ_pos _, ?_, k + d + 1, Nat.lt_succ_self _,
      rfl, ?_, ?_⟩
    · rw [reportRate_long hpos.ne' hlong, hcount, helapsed, reading]
    · exact time_pos (Nat.succ_pos _)
    · show 0 + (k + d + 1) + 1 = k + d + 1 + 1 + 0
      omega
  · left
    refine ⟨_, reportRate_short hpos.ne' hlong, k, Nat.lt_succ_of_lt hk, hlast, hpos, ?_⟩
    show m.frames + 1 + k + 1 = i + 1 + surplus
    omega

/-- Without surplus a window reads the true rate, with it a higher one. -/
theorem reading_zero {d : ℕ} (hd : 0 < d) : reading s 0 d = s.rate := by
  have hperiod := s.period_pos
  rw [reading, Stream.rate, Nat.add_zero]
  field_simp

theorem reading_high {surplus d : ℕ} (hd : 0 < d) (hsurplus : 0 < surplus) :
    s.rate < reading s surplus d := by
  have hperiod := s.period_pos
  have hd' : (0 : ℚ) < d := by exact_mod_cast hd
  have hs' : (0 : ℚ) < surplus := by exact_mod_cast hsurplus
  rw [reading, Stream.rate, div_lt_div_iff₀ hperiod (mul_pos hd' hperiod)]
  push_cast
  nlinarith [mul_pos hs' hperiod]

/-- After the first report every rate is the true one. -/
theorem published_exact {n : ℕ} : ∀ {i : ℕ} {m : Meter}, Counting s i 0 m →
    ∀ r ∈ published (reportRate reportInterval) m (s.window i n), r = s.rate := by
  induction n with
  | zero => intro i m _ r hr; cases hr
  | succ n ih =>
      intro i m h r hr
      have hcons : s.window i (n + 1) = s.time i :: s.window (i + 1) n := rfl
      rw [hcons, published] at hr
      rcases h.step reportInterval with
        ⟨m', hquiet, h'⟩ | ⟨m', d, hd, hreport, h'⟩
      · rw [hquiet] at hr
        exact ih h' r hr
      · rw [hreport] at hr
        rcases List.mem_cons.mp hr with rfl | hr
        · exact reading_zero hd
        · exact ih h' r hr

/-- The first report of a window with surplus, and what follows it. -/
theorem published_surplus (reportInterval : ℚ) {surplus n : ℕ} : ∀ {i : ℕ} {m : Meter},
    Counting s i surplus m →
    published (reportRate reportInterval) m (s.window i n) = [] ∨
      ∃ d rest, 0 < d ∧ published (reportRate reportInterval) m (s.window i n) =
        reading s surplus d :: rest ∧ ∀ r ∈ rest, r = s.rate := by
  induction n with
  | zero => intro i m _; exact .inl rfl
  | succ n ih =>
      intro i m h
      have hcons : s.window i (n + 1) = s.time i :: s.window (i + 1) n := rfl
      rw [hcons, published]
      rcases h.step reportInterval with
        ⟨m', hquiet, h'⟩ | ⟨m', d, hd, hreport, h'⟩
      · rw [hquiet]
        exact ih h'
      · rw [hreport]
        exact .inr ⟨d, _, hd, rfl, published_exact h'⟩

/-- The first frame starts the clock and is counted; at time zero it takes the second frame to
start it. -/
theorem cameraRates_cases (s : Stream) (reportInterval : ℚ) (n : ℕ) :
    cameraRates s reportInterval n = [] ∨ ∃ surplus d rest, 0 < surplus ∧ 0 < d ∧
      cameraRates s reportInterval n = reading s surplus d :: rest ∧ ∀ r ∈ rest, r = s.rate := by
  have hfirst : reportRate reportInterval {} (s.time 0) = (⟨1, s.time 0⟩, none) := rfl
  have hzero : s.time 0 = s.start := by simp [Stream.time]
  match n with
  | 0 => exact .inl rfl
  | n + 1 =>
      have hcons : s.window 0 (n + 1) = s.time 0 :: s.window 1 n := rfl
      rw [cameraRates, hcons, published, hfirst]
      rcases s.start_nonneg.lt_or_eq with hpos | hstart
      · have hcount : Counting s 1 1 ⟨1, s.time 0⟩ :=
          ⟨0, Nat.one_pos, rfl, by rw [hzero]; exact hpos, rfl⟩
        rcases published_surplus reportInterval (n := n) hcount with
          hnone | ⟨d, rest, hd, heq, hrest⟩
        · exact .inl hnone
        · exact .inr ⟨1, d, rest, Nat.one_pos, hd, heq, hrest⟩
      · rw [hzero, ← hstart]
        match n with
        | 0 => exact .inl rfl
        | n + 1 =>
            have hcons : s.window 1 (n + 1) = s.time 1 :: s.window 2 n := rfl
            have hsecond :
                reportRate reportInterval ⟨1, 0⟩ (s.time 1) = (⟨2, s.time 1⟩, none) := rfl
            rw [hcons, published, hsecond]
            have hcount : Counting s 2 2 ⟨2, s.time 1⟩ :=
              ⟨1, Nat.one_lt_two, rfl, time_pos Nat.one_pos, rfl⟩
            rcases published_surplus reportInterval (n := n) hcount with
              hnone | ⟨d, rest, hd, heq, hrest⟩
            · exact .inl hnone
            · exact .inr ⟨2, d, rest, Nat.two_pos, hd, heq, hrest⟩

/-- The first report of the camera is too high, and it is what a maximum keeps. -/
theorem first_report_high {n : ℕ} (h : 0 < (cameraRates s reportInterval n).length) :
    s.rate < (cameraRates s reportInterval n)[0] := by
  rcases cameraRates_cases s reportInterval n with hnone | ⟨surplus, d, rest, hs, hd, heq, -⟩
  · rw [hnone] at h
    cases h
  · simp only [heq, List.getElem_cons_zero]
    exact reading_high hd hs

theorem later_report_exact {n j : ℕ} (h : j < (cameraRates s reportInterval n).length)
    (hj : j ≠ 0) : (cameraRates s reportInterval n)[j] = s.rate := by
  rcases cameraRates_cases s reportInterval n with hnone | ⟨surplus, d, rest, -, -, heq, hrest⟩
  · rw [hnone] at h
    cases h
  · obtain ⟨j, rfl⟩ := Nat.exists_eq_succ_of_ne_zero hj
    simp only [heq, List.getElem_cons_succ]
    exact hrest _ (List.getElem_mem _)

/-- What a deque of two or more frames reads. -/
theorem dequeHz_window (s : Stream) (k n : ℕ) : dequeHz (s.window k (n + 2)) = s.rate := by
  have hwindow : s.window k (n + 2) = s.time k :: s.time (k + 1) :: s.window (k + 2) n := rfl
  have hlength : (s.window (k + 2) n).length = n := by simp [Stream.window]
  have hlast : (s.time (k + 1) :: s.window (k + 2) n).getLastD 0 = s.time (k + n + 1) := by
    have htail : s.time (k + 1) :: s.window (k + 2) n = s.window (k + 1) (n + 1) := rfl
    rw [htail, Stream.window, List.range'_concat, List.map_append, List.map_singleton,
      List.getLastD_concat]
    congr 1
    omega
  have hspan : s.time (k + n + 1) - s.time k = (n + 1 : ℕ) * s.period := by
    rw [time_sub]
    push_cast
    ring
  have hperiod := s.period_pos
  have hpos : (n + 1 : ℕ) * s.period > 0 := by positivity
  rw [hwindow, dequeHz, hlast, hspan, hlength, if_pos hpos, Stream.rate]
  field_simp

/-! ## All three -/

/-- What the estimators read over `n` frames of a stream: the camera and the detector the true
rate in every report but the first, the console in every window. -/
structure RatesRead (s : Stream) (reportInterval : ℚ) (stamps : ℕ → Stamps) (n : ℕ) : Prop where
  camera : ∀ j (h : j < (cameraRates s reportInterval n).length),
    (cameraRates s reportInterval n)[j] = s.rate ↔ j ≠ 0
  detector : ∀ j (h : j < (detectorRates s reportInterval stamps n).length),
    (detectorRates s reportInterval stamps n)[j] = s.rate ↔ j ≠ 0
  console : ∀ k m, 2 ≤ m → dequeHz (s.window k m) = s.rate

/-- **A report reads the true rate exactly when it is not its estimator's first**; `deque_hz`
always does. -/
theorem rates_read (s : Stream) {reportInterval : ℚ} (hpos : 0 < reportInterval)
    (stamps : ℕ → Stamps) (n : ℕ) : RatesRead s reportInterval stamps n := by
  have hcamera : ∀ j (h : j < (cameraRates s reportInterval n).length),
      (cameraRates s reportInterval n)[j] = s.rate ↔ j ≠ 0 := by
    intro j h
    constructor
    · rintro heq rfl
      exact (first_report_high h).ne' heq
    · exact later_report_exact h
  constructor
  case camera => exact hcamera
  case detector =>
      rw [detectorRates_eq hpos]
      exact hcamera
  case console =>
      intro k m hm
      obtain ⟨n, rfl⟩ := Nat.exists_eq_add_of_le' hm
      exact dequeHz_window s k n

/-- A frame a second, from second one on. -/
def everySecond : Stream := ⟨1, 1, by norm_num, by norm_num⟩

theorem rates_read_everySecond : RatesRead everySecond 1 (fun _ => {}) 3 :=
  rates_read everySecond (by norm_num) _ 3

/-- Two frames, one second apart, are reported as two a second. -/
theorem rates_misread : ¬ ∀ s reportInterval stamps n, 0 < reportInterval →
    (∀ r ∈ cameraRates s reportInterval n, r = s.rate) ∧
    (∀ r ∈ detectorRates s reportInterval stamps n, r = s.rate) ∧
    ∀ k m, 2 ≤ m → dequeHz (s.window k m) = s.rate := by
  intro hall
  have h := (hall everySecond 1 (fun _ => {}) 2 (by norm_num)).1 2 (by decide +kernel)
  exact absurd h (by decide +kernel)

end JetsonPerception.Rates
