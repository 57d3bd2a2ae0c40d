/-
# What a status says

`status` puts together the state that it reads under the lock, the size and the rate that it reads
later, and the answers it gets in between: of `poll`, of the clock, of the directory of the
recording, and of the host.  The contract here keeps the whole transcript, and asks of the body of
the response that it is one status made of just that (`Depicts`).
-/
import JetsonPerception.Console.Requests

namespace JetsonPerception.Console.Lock

open Monitor Post

/-! ## What was read and answered -/

abbrev Transcript := List (Seen State Answer Call)

/-- The call was answered so. -/
def Answered (tr : Transcript) (call : Call) (f : Answer → Prop) : Prop :=
  ∃ a, .ask call a ∈ tr ∧ f a

/-- `proc is not None and proc.poll() is None`. -/
def Polled (tr : Transcript) (proc : Option ℕ) (rec : Bool) : Prop :=
  match proc with
  | none => rec = false
  | some p => Answered tr (.poll p) fun a => rec = a.ok

/-- The time since the start of the recording, if there is one. -/
def Elapsed (tr : Transcript) (st : State) (rec : Bool) (t : ℚ) : Prop :=
  if rec then Answered tr .monotonic fun a => t = a.now - st.recordStarted else t = 0

/-- The newest frame has come within the last two seconds. -/
def Connected (tr : Transcript) (st : State) (b : Bool) : Prop :=
  match st.frameTimes.getLast? with
  | some last => Answered tr .monotonic fun a => b = decide (a.now - last < 2)
  | none => b = false

/-- What the recording takes up, if there is one. -/
def Sized (tr : Transcript) (st : State) (rec : Bool) (mb : ℚ) : Prop :=
  if rec then
    Answered tr (.dirSize st.recordPath) fun a => mb = roundTo 1 (a.number.getD 0 / 10 ^ 6)
  else mb = 0

/-- What a status says of the stream, the calibration, the bus and the recorder: all of it is of
this one state. -/
structure Shows (tr : Transcript) (st : State) (p : Status) : Prop where
  encoding : p.encoding = st.encoding
  connected : Connected tr st p.connected
  publisherHz : p.publisherHz = st.publisherHz
  calibrationLoaded : p.calibrationLoaded = st.calibrated
  calibrationModel : p.calibrationModel = st.calibName
  canStatus : p.canStatus = st.canStatus
  canCount : p.canCount = st.canCount
  active : Polled tr st.recording p.recordingActive
  path : p.recordingPath = if p.recordingActive then st.recordPath else ""
  elapsed : ∃ t, Elapsed tr st p.recordingActive t ∧ p.recordingElapsed = roundTo 1 t
  sizeMb : Sized tr st p.recordingActive p.recordingSizeMb

/-- What it says of the host: what was answered. -/
structure Measures (tr : Transcript) (p : Status) : Prop where
  cpu : Answered tr .cpuPercent fun a => p.cpu = a.number
  gpu : Answered tr .gpuPercent fun a => p.gpu = a.number
  power : Answered tr .powerMode fun a => p.power = a.mode
  temp : Answered tr .socTempC fun a => p.temp = a.number
  disk : Answered tr .statvfs fun a => p.diskFreeGb = Post.diskFreeGb a.size

/-- A status is put together from one state, but for the image's size and the rate, which are each
from another, and for what it says of the host. -/
structure Depicts (site : Site) (tr : Transcript) (p : Status) : Prop where
  topic : p.topic = site.imageTopic
  canInterface : p.canInterface = site.canInterface
  shows : ∃ st, .read st ∈ tr ∧ Shows tr st p
  size : ∃ st, .read st ∈ tr ∧ p.width = st.width ∧ p.height = st.height
  rate : ∃ st, .read st ∈ tr ∧ p.consoleRxHz = roundTo 2 (Rates.dequeHz st.frameTimes)
  measures : Measures tr p

/-! ### The transcript goes on -/

variable {tr tr' : Transcript} {call : Call} {f : Answer → Prop} {st : State} {rec : Bool}
  {p : Status} {site : Site}

theorem Answered.mono (h : Answered tr call f) (hsub : tr <+: tr') : Answered tr' call f := by
  obtain ⟨a, ha, hf⟩ := h
  exact ⟨a, hsub.subset ha, hf⟩

theorem Polled.mono {proc : Option ℕ} (h : Polled tr proc rec) (hsub : tr <+: tr') :
    Polled tr' proc rec := by
  cases proc with
  | none => exact h
  | some p => exact Answered.mono h hsub

theorem Elapsed.mono {t : ℚ} (h : Elapsed tr st rec t) (hsub : tr <+: tr') :
    Elapsed tr' st rec t := by
  cases rec with
  | false => exact h
  | true => exact Answered.mono h hsub

theorem Connected.mono {b : Bool} (h : Connected tr st b) (hsub : tr <+: tr') :
    Connected tr' st b := by
  rw [Connected] at h ⊢
  split at h
  · exact h.mono hsub
  · exact h

theorem Sized.mono {mb : ℚ} (h : Sized tr st rec mb) (hsub : tr <+: tr') : Sized tr' st rec mb := by
  cases rec with
  | false => exact h
  | true => exact Answered.mono h hsub

theorem Shows.mono (h : Shows tr st p) (hsub : tr <+: tr') : Shows tr' st p := by
  obtain ⟨t, ht, helapsed⟩ := h.elapsed
  exact { h with
    connected := h.connected.mono hsub
    active := h.active.mono hsub
    elapsed := ⟨t, ht.mono hsub, helapsed⟩
    sizeMb := h.sizeMb.mono hsub }

theorem Measures.mono (h : Measures tr p) (hsub : tr <+: tr') : Measures tr' p :=
  ⟨h.cpu.mono hsub, h.gpu.mono hsub, h.power.mono hsub, h.temp.mono hsub, h.disk.mono hsub⟩

theorem Depicts.mono (h : Depicts site tr p) (hsub : tr <+: tr') : Depicts site tr' p := by
  obtain ⟨st, hst, hshows⟩ := h.shows
  obtain ⟨st', hst', hsize⟩ := h.size
  obtain ⟨st'', hst'', hrate⟩ := h.rate
  exact ⟨h.topic, h.canInterface, ⟨st, hsub.subset hst, hshows.mono hsub⟩,
    ⟨st', hsub.subset hst', hsize⟩, ⟨st'', hsub.subset hst'', hrate⟩, h.measures.mono hsub⟩

/-! ## Function by function -/

/-- What is written as a body is a status made of what has been seen. -/
def speaks (site : Site) : Contract State Answer Call Transcript where
  note tr x := tr ++ [x]
  allows tr
    | .client (.body body) => ∃ p, Depicts site tr p ∧ body = site.dumpsStatus p
    | _ => True

theorem ask_speaks {k : Answer → Program}
    (hk : ∀ a tr', tr <+: tr' → .ask call a ∈ tr' → (k a).Honours (speaks site) tr') :
    (Prog.ask call k).Honours (speaks site) tr :=
  ⟨trivial, fun a => hk a (tr ++ [_]) (List.prefix_append ..) (by simp)⟩

theorem read_speaks {k : State → Program}
    (hk : ∀ st tr', tr <+: tr' → .read st ∈ tr' → (k st).Honours (speaks site) tr') :
    (Prog.read k).Honours (speaks site) tr :=
  fun st => hk st (tr ++ [_]) (List.prefix_append ..) (by simp)

theorem polls_speaks {proc : Option ℕ} {k : Bool → Program}
    (hk : ∀ rec tr', tr <+: tr' → Polled tr' proc rec → (k rec).Honours (speaks site) tr') :
    (polls proc k).Honours (speaks site) tr := by
  cases proc with
  | none => exact hk false tr List.prefix_rfl rfl
  | some p => exact ask_speaks fun a tr' hsub ha => hk a.ok tr' hsub ⟨a, ha, rfl⟩

theorem elapsed_speaks {k : ℚ → Program}
    (hk : ∀ t tr', tr <+: tr' → Elapsed tr' st rec t → (k t).Honours (speaks site) tr') :
    (elapsed st rec k).Honours (speaks site) tr := by
  cases rec with
  | false => exact hk 0 tr List.prefix_rfl rfl
  | true => exact ask_speaks fun a tr' hsub ha => hk _ tr' hsub ⟨a, ha, rfl⟩

theorem connected_speaks {k : Bool → Program}
    (hk : ∀ b tr', tr <+: tr' → Connected tr' st b → (k b).Honours (speaks site) tr') :
    (connected st k).Honours (speaks site) tr := by
  rw [connected]
  cases hlast : st.frameTimes.getLast? with
  | none =>
      refine hk false tr List.prefix_rfl ?_
      rw [Connected, hlast]
  | some last =>
      refine ask_speaks fun a tr' hsub ha => hk _ tr' hsub ?_
      rw [Connected, hlast]
      exact ⟨a, ha, rfl⟩

theorem sizeMb_speaks {k : ℚ → Program}
    (hk : ∀ mb tr', tr <+: tr' → Sized tr' st rec mb → (k mb).Honours (speaks site) tr') :
    (sizeMb st rec k).Honours (speaks site) tr := by
  cases rec with
  | false => exact hk 0 tr List.prefix_rfl rfl
  | true => exact ask_speaks fun a tr' hsub ha => hk _ tr' hsub ⟨a, ha, rfl⟩

theorem readDims_speaks {k : ℕ → ℕ → Program} (hk : ∀ st tr', tr <+: tr' → .read st ∈ tr' →
      (k st.width st.height).Honours (speaks site) tr') :
    (readDims k).Honours (speaks site) tr :=
  read_speaks hk

/-- The pair that `_dims` returns is of one state. -/
theorem dims_speaks {k : ℕ → ℕ → Program} (hk : ∀ st tr', tr <+: tr' → .read st ∈ tr' →
      (k st.width st.height).Honours (speaks site) tr') :
    (dims k).Honours (speaks site) tr := by
  have hread : ∀ tr', tr <+: tr' → (readDims k).Honours (speaks site) tr' := by
    intro tr' hsub
    exact readDims_speaks fun st tr'' hsub' hst => hk st tr'' (hsub.trans hsub') hst
  refine ask_speaks fun now tr₁ h₁ _ => read_speaks fun st tr₂ h₂ _ => ?_
  have hsub₂ := h₁.trans h₂
  refine Prog.Honours.ite (fun _ => ⟨trivial, ?_⟩) fun _ => hread _ hsub₂
  refine read_speaks fun st' tr₃ h₃ _ => ?_
  have hsub₃ := hsub₂.trans h₃
  cases st'.frameJpeg with
  | none => exact hread _ hsub₃
  | some jpeg =>
      refine ask_speaks fun a tr₄ h₄ _ => Prog.Honours.ite (fun _ => ?_) fun _ => trivial
      have hsub₄ := hsub₃.trans h₄
      cases a.size with
      | none => exact hread _ hsub₄
      | some size => exact ⟨trivial, hread _ hsub₄⟩

theorem reading_speaks {k : Answer → Program}
    (hk : ∀ a tr', tr <+: tr' → .ask call a ∈ tr' → (k a).Honours (speaks site) tr') :
    (reading call k).Honours (speaks site) tr :=
  ask_speaks fun a tr' hsub ha => Prog.Honours.ite (fun _ => hk a tr' hsub ha) fun _ => trivial

/-- **What `status` returns is put together from what it has seen.** -/
theorem status_speaks {k : Status → Program}
    (hk : ∀ tr' p, Depicts site tr' p → (k p).Honours (speaks site) tr') :
    (status site k).Honours (speaks site) tr := by
  refine read_speaks fun st tr₀ _ hst => polls_speaks fun rec tr₁ h₁ hactive => ?_
  refine elapsed_speaks fun t tr₂ h₂ helapsed => connected_speaks fun b tr₃ h₃ hconnected => ?_
  refine sizeMb_speaks fun mb tr₄ h₄ hsized => read_speaks fun st' tr₅ h₅ hst' => ?_
  refine dims_speaks fun st'' tr₆ h₆ hst'' => reading_speaks fun cpu tr₇ h₇ hcpu => ?_
  refine reading_speaks fun gpu tr₈ h₈ hgpu => reading_speaks fun power tr₉ h₉ hpower => ?_
  refine reading_speaks fun temp trx hx htemp => ask_speaks fun disk try' hy hdisk => ?_
  have h69 := (((h₇.trans h₈).trans h₉).trans hx).trans hy
  have h5 := h₆.trans h69
  have h4 := h₅.trans h5
  have hshows : Shows tr₄ st
      { topic := site.imageTopic, encoding := st.encoding, connected := b
        publisherHz := st.publisherHz
        calibrationLoaded := st.calibrated, calibrationModel := st.calibName
        canInterface := site.canInterface, canStatus := st.canStatus, canCount := st.canCount
        recordingActive := rec, recordingPath := if rec then st.recordPath else ""
        recordingElapsed := roundTo 1 t, recordingSizeMb := mb
        consoleRxHz := roundTo 2 (Rates.dequeHz st'.frameTimes)
        width := st''.width, height := st''.height
        cpu := cpu.number, gpu := gpu.number, power := power.mode, temp := temp.number
        diskFreeGb := Post.diskFreeGb disk.size } := by
    constructor <;> try rfl
    · exact hconnected.mono h₄
    · exact hactive.mono ((h₂.trans h₃).trans h₄)
    · exact ⟨t, helapsed.mono (h₃.trans h₄), rfl⟩
    · exact hsized
  refine hk _ _ ⟨rfl, rfl, ⟨st, ?_, hshows.mono h4⟩, ⟨st'', h69.subset hst'', rfl, rfl⟩,
    ⟨st', h5.subset hst', rfl⟩, ?_⟩
  · exact ((((h₁.trans h₂).trans h₃).trans h₄).trans h4).subset hst
  · exact ⟨⟨cpu, (((h₈.trans h₉).trans hx).trans hy).subset hcpu, rfl⟩,
      ⟨gpu, ((h₉.trans hx).trans hy).subset hgpu, rfl⟩, ⟨power, (hx.trans hy).subset hpower, rfl⟩,
      ⟨temp, hy.subset htemp, rfl⟩, ⟨disk, hdisk, rfl⟩⟩

/-! ## In every run -/

variable {target : String} {polls i : ℕ} {es es' : List (Event Answer Job)}
  {t : Threads State Answer Call}

/-- `do_GET` on the path of the status. -/
theorem doGet_status (h : pathOf target = "/api/status") (polls : ℕ) :
    doGet site target polls = status site fun st => json 200 (site.dumpsStatus st) .done := by
  rw [doGet, h]
  rfl

theorem doGet_speaks (h : pathOf target = "/api/status") (polls : ℕ) :
    (doGet site target polls).Honours (speaks site) [] := by
  rw [doGet_status h]
  refine status_speaks fun tr p hp => ⟨trivial, fun a => Prog.Honours.ite (fun _ => ?_) fun _ => ?_⟩
  · exact ⟨⟨p, hp.mono (List.prefix_append ..), rfl⟩, fun _ => trivial⟩
  · trivial

theorem foldl_speaks (xs : Transcript) : ∀ tr : Transcript,
    xs.foldl (speaks site).note tr = tr ++ xs := by
  induction xs with
  | nil => simp
  | cons x xs ih =>
      intro tr
      rw [List.foldl_cons, ih]
      simp [speaks]

/-- The body of a whole response was written. -/
theorem body_heard {tr : Transcript} {code : ℕ} {fields : List (String × String)}
    {body : List UInt8} (h : wire tr = [.headers code fields, .body body]) :
    ∃ a, .client (.body body) a ∈ tr := by
  have hmem : Call.body body ∈ tr.filterMap wrote? := by
    rw [show tr.filterMap wrote? = wire tr from rfl, h]
    simp
  obtain ⟨x, hx, hwrote⟩ := List.mem_filterMap.mp hmem
  cases x with
  | read st | ask call a => cases hwrote
  | client call a =>
      cases call with
      | read length => cases hwrote
      | body bytes =>
          have hwrote : a.ok = true ∧ bytes = body := by simpa [wrote?] using hwrote
          obtain ⟨-, rfl⟩ := hwrote
          exact ⟨a, hx⟩
      | _ => simp [wrote?] at hwrote

/-- The status that a client is given. -/
theorem Working.depicts (h : Working site es i (.doGet target polls) es' t)
    (hpath : pathOf target = "/api/status") {code : ℕ} {fields : List (String × String)}
    {body : List UInt8} (hwire : wire (heard site es i (.doGet target polls) es') =
      [.headers code fields, .body body]) :
    ∃ p, body = site.dumpsStatus p ∧
      Depicts site (heard site es i (.doGet target polls) es') p := by
  obtain ⟨-, hrun, hprog⟩ := h.begin
  have hallowed : (speaks site).Allowed [] (heard site es i (.doGet target polls) es') := by
    refine Run.allowed hrun h.busy ?_
    rw [hprog]
    exact doGet_speaks hpath polls
  obtain ⟨a, ha⟩ := body_heard hwire
  obtain ⟨before, after, hsplit⟩ := List.append_of_mem ha
  rw [hsplit] at hallowed ⊢
  rw [Contract.allowed_append, foldl_speaks] at hallowed
  obtain ⟨p, hp, hbody⟩ := hallowed.2.1
  exact ⟨p, hbody, hp.mono (List.prefix_append ..)⟩

/-- **A status describes its own request**: the states it is put together from are those of moments
of the request, and the answers are those it got; what it says of the recording and of the
calibration belongs together. -/
theorem status_snapshot (h : Working site es i (.doGet target polls) es' t)
    (hpath : pathOf target = "/api/status") {code : ℕ} {fields : List (String × String)}
    {body : List UInt8} (hwire : wire (heard site es i (.doGet target polls) es') =
      [.headers code fields, .body body]) :
    ∃ p, body = site.dumpsStatus p ∧
      Depicts site (heard site es i (.doGet target polls) es') p ∧
      (∀ st, .read st ∈ heard site es i (.doGet target polls) es' →
        During site es i (.doGet target polls) es' st ∧ Sound site st) ∧
      (p.calibrationLoaded = false → p.calibrationModel = "") ∧
      (p.recordingActive = false → p.recordingPath = "") ∧
      (p.recordingActive = true → ∃ stamp, p.recordingPath = recordPath site.toConfig stamp) := by
  obtain ⟨p, hbody, hp⟩ := h.depicts hpath hwire
  have hreads : ∀ st, .read st ∈ heard site es i (.doGet target polls) es' →
      During site es i (.doGet target polls) es' st ∧ Sound site st := by
    intro st hst
    exact ⟨heard_during hst, h.sound (heard_during hst)⟩
  obtain ⟨st, hst, hshows⟩ := hp.shows
  have hsound := (hreads st hst).2
  refine ⟨p, hbody, hp, hreads, fun hloaded => ?_, fun hoff => ?_, fun hon => ?_⟩
  · rw [hshows.calibrationModel]
    exact hsound.calib (hshows.calibrationLoaded.symm.trans hloaded)
  · rw [hshows.path, hoff]
    rfl
  · rw [hshows.path, if_pos hon]
    refine hsound.record ?_
    have hactive := hshows.active
    cases hrec : st.recording with
    | none =>
        rw [hrec] at hactive
        exact absurd (hon.symm.trans hactive) (by simp)
    | some proc => rfl

/-- A frame has come, and a recording is started. -/
def recordingNow : List (Event Answer Job) :=
  published [1] ++ [.start 2 (.doPost "/api/record/start" 0), .acquire 2, .read 2, .release 2,
    .ask 2 {}, .ask 2 { text := "noon" }, .ask 2 { proc := 7 }, .acquire 2, .ask 2 { now := 1 },
    .update 2, .release 2, .client 2 {}, .client 2 {}]

/-- A status is asked for, a second later. -/
def statusEvents : List (Event Answer Job) :=
  [.acquire 0, .read 0, .ask 0 {}, .ask 0 { now := 2 }, .ask 0 { now := 2 }, .ask 0 {}, .release 0,
    .acquire 0, .read 0, .release 0, .ask 0 { now := 2 }, .read 0, .acquire 0, .read 0, .release 0,
    .ask 0 {}, .ask 0 {}, .ask 0 {}, .ask 0 {}, .ask 0 {}, .client 0 {}, .client 0 {}]

theorem statusEvents_working : Working plainSite recordingNow 0 (.doGet "/api/status" 0)
    statusEvents ((recordingNow ++ .start 0 (.doGet "/api/status" 0) :: statusEvents).foldl
      (console plainSite).act start) where
  run := .of_admits (by decide +kernel)
  busy := by simp [statusEvents]

theorem status_snapshot_statusEvents : ∃ p,
    Depicts plainSite (heard plainSite recordingNow 0 (.doGet "/api/status" 0) statusEvents) p ∧
      (p.recordingActive = true → ∃ stamp,
        p.recordingPath = recordPath plainSite.toConfig stamp) := by
  have hwire : wire (heard plainSite recordingNow 0 (.doGet "/api/status" 0) statusEvents) =
      [.headers 200 (contentFields "application/json" (0 :: ascii "not started".toList)),
        .body (0 :: ascii "not started".toList)] := by
    decide +kernel
  obtain ⟨p, -, hp, -, -, -, hpath⟩ := status_snapshot statusEvents_working (by decide) hwire
  exact ⟨p, hp, hpath⟩

end JetsonPerception.Console.Lock
