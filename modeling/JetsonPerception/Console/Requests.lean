/-
# What the clients of the console are told

A request is thread `i`'s job `j`, begun after the events `es` of a run of the console; `es'` are
the events since, of this thread and of all the others.  Of what it writes:

| | |
| :-- | :-- |
| `responses` | at most one response, of the length it announces; a GET that ends has written it |
| `files_confined` | a file it read is in the web root by a name without a slash, and was there |
| `frames_in_order` | the frames that clients get, by their numbers |
-/
import JetsonPerception.Console.Serve

namespace JetsonPerception.Console.Lock

open Monitor Post

variable {site : Site} {target : String} {owes : Bool} {es es' : List (Event Answer Job)}
  {s t : Threads State Answer Call} {i : ℕ} {j : Job}

/-! ## A request and its transcript -/

/-- Thread `i` is given the job `j` after the events `es`, and is still at it, or done with it,
after the events `es'` that follow. -/
structure Working (site : Site) (es : List (Event Answer Job)) (i : ℕ) (j : Job)
    (es' : List (Event Answer Job)) (t : Threads State Answer Call) : Prop where
  run : (console site).Run start (es ++ .start i j :: es') t
  busy : ∀ j', .start i j' ∉ es'

/-- The console when thread `i` has just been given its job. -/
def begun (site : Site) (es : List (Event Answer Job)) (i : ℕ) (j : Job) :
    Threads State Answer Call :=
  act (job site) (es.foldl (act (job site)) start) (Event.start i j)

/-- What the thread sees while it is at it. -/
def heard (site : Site) (es : List (Event Answer Job)) (i : ℕ) (j : Job)
    (es' : List (Event Answer Job)) : List (Seen State Answer Call) :=
  transcript (job site) i (begun site es i j) es'

/-- What the client has taken. -/
def wrote? : Seen State Answer Call → Option Call
  | .client (.read _) _ => none
  | .client call a => if a.ok then some call else none
  | _ => none

/-- The client has failed. -/
def breaks : Seen State Answer Call → Bool
  | .client _ a => !a.ok
  | _ => false

/-- A call has raised what no handler of a GET catches. -/
def raises : Seen State Answer Call → Bool
  | .ask call a => call.raises && !a.ok
  | _ => false

/-- All that the client has taken, in order. -/
def wire (tr : List (Seen State Answer Call)) : List Call := tr.filterMap wrote?

/-- Nothing, the headers of a response, or all of it: as many bytes as they announce. -/
def OneResponse (calls : List Call) : Prop :=
  calls = [] ∨ (∃ code fields, calls = [.headers code fields]) ∨
    ∃ code fields body, calls = [.headers code fields, .body body] ∧
      fields.lookup "Content-Length" = some (toString body.length)

/-- A whole response, unless the client failed or such a call has raised. -/
def Finished (tr : List (Seen State Answer Call)) : Prop :=
  (∃ code fields body, wire tr = [.headers code fields, .body body]) ∨
    tr.any breaks = true ∨ tr.any raises = true

theorem Working.begin (h : Working site es i j es' t) :
    (console site).Run start (es ++ [.start i j]) (begun site es i j) ∧
      (console site).Run (begun site es i j) es' t ∧ (begun site es i j).prog i = job site j := by
  obtain ⟨u, hu, hg, hrest⟩ := h.run.visit
  have hfold : u = es.foldl (act (job site)) start := hu.eq_foldl
  have hbegun : begun site es i j = (console site).act u (.start i j) := by
    rw [hfold]
    rfl
  rw [hbegun]
  exact ⟨hu.snoc _ hg, hrest, u.goto_self i _⟩

theorem note_wire (g : Desk) (x : Seen State Answer Call) :
    (g.note x).wire = g.wire ++ (wrote? x).toList := by
  cases x with
  | read st => simp [Desk.note, wrote?]
  | ask call a => cases call <;> simp [Desk.note, wrote?]
  | client call a => cases call <;> cases ha : a.ok <;> simp [Desk.note, wrote?, ha]

theorem note_broken (g : Desk) (x : Seen State Answer Call) :
    (g.note x).broken = (g.broken || breaks x) := by
  cases x with
  | read st => simp [Desk.note, breaks]
  | ask call a => cases call <;> simp [Desk.note, breaks]
  | client call a => cases call <;> simp [Desk.note, breaks]

theorem note_raised (g : Desk) (x : Seen State Answer Call) :
    (g.note x).raised = (g.raised || raises x) := by
  cases x with
  | read st => simp [Desk.note, raises]
  | ask call a => cases call <;> simp [Desk.note, raises, Call.raises, Bool.or_comm]
  | client call a => cases call <;> simp [Desk.note, raises]

theorem mem_note_reads {g : Desk} {x : Seen State Answer Call} {st : State}
    (h : st ∈ (g.note x).reads) : st ∈ g.reads ∨ x = .read st := by
  cases x with
  | read st' =>
      rcases List.mem_cons.mp h with rfl | h
      · exact .inr rfl
      · exact .inl h
  | ask call a => cases call <;> exact .inl h
  | client call a => cases call <;> exact .inl h

/-- The notes of a thread are those of its transcript. -/
theorem foldl_note (tr : List (Seen State Answer Call)) : ∀ g : Desk,
    (tr.foldl Desk.note g).wire = g.wire ++ wire tr ∧
      (tr.foldl Desk.note g).broken = (g.broken || tr.any breaks) ∧
      (tr.foldl Desk.note g).raised = (g.raised || tr.any raises) := by
  induction tr with
  | nil => simp [wire]
  | cons x tr ih =>
      intro g
      obtain ⟨hwire, hbroken, hraised⟩ := ih (g.note x)
      rw [List.foldl_cons, hwire, hbroken, hraised, note_wire, note_broken, note_raised,
        List.append_assoc, Bool.or_assoc, Bool.or_assoc]
      refine ⟨?_, rfl, rfl⟩
      cases hx : wrote? x <;> simp [wire, hx]

theorem mem_foldl_reads {tr : List (Seen State Answer Call)} {st : State} : ∀ {g : Desk},
    st ∈ (tr.foldl Desk.note g).reads → st ∈ g.reads ∨ .read st ∈ tr := by
  induction tr with
  | nil => exact .inl
  | cons x tr ih =>
      intro g h
      rcases ih h with h | h
      · rcases mem_note_reads h with h | rfl
        · exact .inl h
        · exact .inr (List.mem_cons_self ..)
      · exact .inr (List.mem_cons_of_mem _ h)

/-- What has been written is one response, as far as it has come, and tells what was read. -/
def Desk.Proper (site : Site) (target : String) (g : Desk) : Prop :=
  g.wire = [] ∨ (∃ code fields, g.wire = [.headers code fields]) ∨
    ∃ code fields body, g.wire = [.headers code fields, .body body] ∧
      fields.lookup "Content-Length" = some (toString body.length) ∧
      Tells site target g.reads fields body

theorem proper_note {g : Desk} {x : Seen State Answer Call} (h : g.Proper site target)
    (hx : (desk site target owes).permits g x) : (g.note x).Proper site target := by
  cases x with
  | read st =>
      rcases h with h | h | ⟨code, fields, body, h, hlength, htells⟩
      · exact .inl h
      · exact .inr (.inl h)
      · exact .inr (.inr ⟨code, fields, body, h, hlength, htells.mono (List.subset_cons_self _ _)⟩)
  | ask call a => cases call <;> exact h
  | client call a =>
      cases call with
      | read length => exact h
      | headers code fields =>
          obtain ⟨hsilent, -⟩ : g.wire = [] ∧ g.broken = false := hx
          cases ha : a.ok with
          | false => exact .inl (by simp [Desk.note, ha, hsilent])
          | true => exact .inr (.inl ⟨code, fields, by simp [Desk.note, ha, hsilent]⟩)
      | body body =>
          obtain ⟨-, code, fields, hwire, hlength, htells⟩ := hx
          cases ha : a.ok with
          | false => exact .inr (.inl ⟨code, fields, by simp [Desk.note, ha, hwire]⟩)
          | true =>
              refine .inr (.inr ⟨code, fields, body, ?_, hlength, htells⟩)
              simp [Desk.note, ha, hwire]
      | _ => exact hx.elim

/-- All that a request has done was allowed. -/
theorem Working.allowed (h : Working site es i j es' t) :
    (desk site j.getTarget j.isGet).Allowed j.opening (heard site es i j es') := by
  obtain ⟨-, hrun, hprog⟩ := h.begin
  refine Run.allowed hrun h.busy ?_
  rw [hprog]
  exact job_honours j

/-- What it may still do. -/
theorem Working.honours (h : Working site es i j es' t) :
    (t.prog i).Honours (desk site j.getTarget j.isGet)
      ((heard site es i j es').foldl Desk.note j.opening) := by
  obtain ⟨-, hrun, hprog⟩ := h.begin
  refine Run.honours hrun h.busy ?_
  rw [hprog]
  exact job_honours j

theorem Working.proper (h : Working site es i j es' t) :
    ((heard site es i j es').foldl Desk.note j.opening).Proper site j.getTarget :=
  h.allowed.inv (fun _ _ => proper_note) (.inl rfl)

/-! ## One response for each request -/

/-- **One response for each request.**  Whatever the other threads do, a request gets at most one
response, its body as long as its headers say; and a GET that has ended got a whole one, unless
its client failed, or a file that was there could not be read, or the frame not be decoded, or a
reading of the host raised. -/
theorem responses (h : Working site es i j es' t) : OneResponse (wire (heard site es i j es')) ∧
    (j.isGet = true → t.prog i = .done → Finished (heard site es i j es')) := by
  have hhonours := h.honours
  obtain ⟨hwire, hbroken, hraised⟩ := foldl_note (heard site es i j es') j.opening
  constructor
  · rcases h.proper with hw | ⟨code, fields, hw⟩ | ⟨code, fields, body, hw, hlength, -⟩
    · exact .inl (hwire.symm.trans hw)
    · exact .inr (.inl ⟨code, fields, hwire.symm.trans hw⟩)
    · exact .inr (.inr ⟨code, fields, body, hwire.symm.trans hw, hlength⟩)
  · intro hget hdone
    rw [hdone] at hhonours
    rcases hhonours hget with ⟨code, fields, body, hw⟩ | hb | hu
    · exact .inl ⟨code, fields, body, hwire.symm.trans hw⟩
    · exact .inr (.inl (hbroken.symm.trans hb))
    · exact .inr (.inr (hraised.symm.trans hu))

/-- A client asks for the CAN frames, and takes the whole answer. -/
def askCan : List (Event Answer Job) :=
  [.acquire 0, .read 0, .client 0 {}, .client 0 {}, .release 0]

theorem askCan_working :
    Working plainSite [] 0 (.doGet "/api/can" 0) askCan
      ((.start 0 (.doGet "/api/can" 0) :: askCan).foldl (console plainSite).act start) where
  run := .of_admits (by decide +kernel)
  busy := by simp [askCan]

theorem responses_askCan : Finished (heard plainSite [] 0 (.doGet "/api/can" 0) askCan) :=
  (responses askCan_working).2 rfl rfl

/-! ## Files -/

/-- What has been found to be there. -/
theorem mem_foldl_files {path : String} {tr : List (Seen State Answer Call)} : ∀ {g : Desk},
    path ∈ (tr.foldl Desk.note g).files →
      path ∈ g.files ∨ ∃ a, a.ok = true ∧ .ask (.isFile path) a ∈ tr := by
  induction tr with
  | nil => exact .inl
  | cons x tr ih =>
      intro g h
      rcases ih h with h | ⟨a, ha, hmem⟩
      · by_cases hx : ∃ a, a.ok = true ∧ x = .ask (.isFile path) a
        · obtain ⟨a, ha, rfl⟩ := hx
          exact .inr ⟨a, ha, List.mem_cons_self ..⟩
        · refine .inl ?_
          cases x with
          | read st => exact h
          | client call a => cases call <;> exact h
          | ask call a =>
              cases call with
              | isFile path' =>
                  cases ha : a.ok with
                  | false => simpa [Desk.note, ha] using h
                  | true =>
                      have hne : path ≠ path' := by
                        rintro rfl
                        exact hx ⟨a, ha, rfl⟩
                      simpa [Desk.note, ha, hne] using h
              | _ => exact h
      · exact .inr ⟨a, ha, List.mem_cons_of_mem _ hmem⟩

/-- **Only files of the web root are read**, under names without a slash, and only after they were
found to be regular files; whatever the target asks for. -/
theorem files_confined (h : Working site es i j es' t) {path : String} {a : Answer}
    {before after : List (Seen State Answer Call)}
    (hread : heard site es i j es' = before ++ .ask (.readFile path) a :: after) :
    InWebRoot site path ∧ ∃ b, b.ok = true ∧ .ask (.isFile path) b ∈ before := by
  have hallowed := h.allowed
  rw [hread, Contract.allowed_append] at hallowed
  obtain ⟨hroot, hmem⟩ : InWebRoot site path ∧ path ∈ (before.foldl Desk.note j.opening).files :=
    hallowed.2.1
  rcases mem_foldl_files hmem with h | h
  · cases h
  · exact ⟨hroot, h⟩

/-- A request for the page, and two calls of it that are answered. -/
def askPage : List (Event Answer Job) := [.ask 0 {}, .ask 0 {}]

theorem askPage_working :
    Working plainSite [] 0 (.doGet "/static/../app.js" 0) askPage
      ((.start 0 (.doGet "/static/../app.js" 0) :: askPage).foldl (console plainSite).act
        start) where
  run := .of_admits (by decide +kernel)
  busy := by simp [askPage]

theorem files_confined_askPage : InWebRoot plainSite "web/app.js" :=
  have hheard : heard plainSite [] 0 (.doGet "/static/../app.js" 0) askPage =
      [.ask (.isFile "web/app.js") {}] ++ .ask (.readFile "web/app.js") {} :: [] := by
    decide +kernel
  (files_confined askPage_working hheard).1

/-! ## Moments of a run -/

/-- The state of the console after the events. -/
def moment (site : Site) (es : List (Event Answer Job)) : State :=
  (es.foldl (act (job site)) start).shared

/-- The state is that of some moment of the request. -/
def During (site : Site) (es : List (Event Answer Job)) (i : ℕ) (j : Job)
    (es' : List (Event Answer Job)) (st : State) : Prop :=
  ∃ now, now <+: es' ∧ st = moment site (es ++ .start i j :: now)

/-- What a request has read is the state of a moment of it. -/
theorem heard_during {st : State} (h : .read st ∈ heard site es i j es') :
    During site es i j es' st := by
  obtain ⟨now, later, rfl, hst⟩ := read_visits h
  refine ⟨now, List.prefix_append _ _, ?_⟩
  rw [moment, List.foldl_append, List.foldl_cons]
  exact hst.symm

/-- A preorder that every change respects holds from an earlier moment to a later one. -/
theorem moment_changes {R : State → State → Prop} (hR : Respects (changes site) R)
    (h : (console site).Run start es t) {now later : List (Event Answer Job)} (hnow : now <+: later)
    (hlater : later <+: es) : R (moment site now) (moment site later) := by
  obtain ⟨rest, rfl⟩ := hlater
  obtain ⟨between, rfl⟩ := hnow
  obtain ⟨u, hu, -⟩ := h.split
  obtain ⟨v, hv, hvu⟩ := hu.split
  have hchanges := changes_run hR hv hvu
  rw [hv.eq_foldl, hu.eq_foldl] at hchanges
  exact hchanges

/-- What every change keeps, and holds at first, holds at every moment. -/
theorem moment_inv {I : State → Prop} (hI : ∀ st st', Change site st st' → I st → I st')
    (h0 : I {}) (h : (console site).Run start es t) {now : List (Event Answer Job)}
    (hnow : now <+: es) : I (moment site now) := by
  have hR : Respects (changes site) fun st st' => I st → I st' := by
    refine ⟨fun _ h => h, fun _ _ _ h h' hst => h' (h hst), ?_⟩
    intro g f hf st
    exact hI st (f st) (hf st)
  exact moment_changes hR h (List.nil_prefix) hnow h0

/-! ## The state of the console -/

/-- What holds of the state at every moment. -/
structure Sound (site : Site) (st : State) : Prop where
  frame : st.frameJpeg.isSome ↔ 0 < st.frameSeq
  times : st.frameTimes.length = min st.frameSeq 90
  frames : st.canFrames.length = min st.canCount site.canHistory
  parsed : ∀ entry ∈ st.canFrames, ∃ raw, parseCanFrame raw = some entry.1
  calib : st.calibrated = false → st.calibName = ""
  record : st.recording.isSome → ∃ stamp, st.recordPath = recordPath site.toConfig stamp

theorem Sound.init : Sound site {} := by
  constructor <;> simp

theorem Sound.change {st st' : State} (hc : Change site st st') (h : Sound site st) :
    Sound site st' := by
  cases hc with
  | frame data format now =>
      have htimes := h.times
      refine { h with frame := by simp, times := ?_ }
      simp only [List.length_drop, List.length_append, List.length_singleton]
      omega
  | rate data => exact { h with }
  | info loaded name hname => exact { h with calib := hname }
  | imageSub sub => exact { h with }
  | canStatus text => exact { h with }
  | canFrame raw entry now hparse =>
      have hframes := h.frames
      refine { h with frames := ?_, parsed := ?_ }
      · simp only [List.length_take, List.length_cons]
        omega
      · intro e he
        rcases List.mem_cons.mp (List.mem_of_mem_take he) with rfl | he
        · exact ⟨raw, hparse⟩
        · exact h.parsed e he
  | started proc stamp now => exact { h with record := fun _ => ⟨stamp, rfl⟩ }
  | stopped => exact { h with record := nofun }
  | dimsChecked now => exact { h with }
  | dims width height => exact { h with }
  | frameRequest now => exact { h with }

theorem Working.sound (h : Working site es i j es' t) {st : State}
    (hst : During site es i j es' st) : Sound site st := by
  obtain ⟨now, ⟨later, rfl⟩, rfl⟩ := hst
  refine moment_inv (fun _ _ => Sound.change) Sound.init h.run ⟨later, ?_⟩
  rw [List.append_assoc, List.cons_append]

/-- What a whole response tells is of moments of its request. -/
theorem Working.tells (h : Working site es i j es' t) {code : ℕ}
    {fields : List (String × String)} {body : List UInt8}
    (hwire : wire (heard site es i j es') = [.headers code fields, .body body]) :
    ∃ reads, (∀ st ∈ reads, During site es i j es' st) ∧
      Tells site j.getTarget reads fields body := by
  obtain ⟨hnotes, -, -⟩ := foldl_note (heard site es i j es') j.opening
  rw [hwire] at hnotes
  have hnotes : _ = [Call.headers code fields, Call.body body] := hnotes
  rcases h.proper with hw | ⟨code', fields', hw⟩ | ⟨code', fields', body', hw, -, htells⟩
  · rw [hw] at hnotes
    cases hnotes
  · rw [hw] at hnotes
    cases hnotes
  · rw [hw] at hnotes
    cases hnotes
    refine ⟨_, fun st hst => ?_, htells⟩
    rcases mem_foldl_reads hst with h | h
    · cases h
    · exact heard_during h

/-! ## Frames -/

/-- The numbers do not go back, and a number is that of one frame. -/
def Newer (st st' : State) : Prop :=
  st.frameSeq ≤ st'.frameSeq ∧ (st.frameSeq = st'.frameSeq → st.frameJpeg = st'.frameJpeg)

theorem newer_respects : Respects (changes site) Newer where
  refl st := ⟨le_rfl, fun _ => rfl⟩
  trans st st' st'' h h' := by
    refine ⟨h.1.trans h'.1, fun heq => ?_⟩
    have h1 := h.1
    have h1' := h'.1
    exact (h.2 (by omega)).trans (h'.2 (by omega))
  update g f hf st := by
    have hc : Change site st (f st) := hf st
    generalize f st = st' at hc
    cases hc with
    | frame data format now =>
        refine ⟨Nat.le_succ _, fun heq => ?_⟩
        exact absurd heq (Nat.succ_ne_self _).symm
    | _ => exact ⟨le_rfl, fun _ => rfl⟩

/-- A client has got a frame under its number. -/
def Served (site : Site) (es : List (Event Answer Job)) (i : ℕ) (j : Job)
    (es' : List (Event Answer Job)) (seq : ℕ) (jpeg : List UInt8) : Prop :=
  ∃ code fields, wire (heard site es i j es') = [.headers code fields, .body jpeg] ∧
    fields.lookup "X-Frame-Seq" = some (toString seq)

/-- The decimal digits of a number say which it is. -/
theorem toString_inj {m n : ℕ} (h : toString m = toString n) : m = n := by
  rw [Nat.toString_eq_repr, Nat.toString_eq_repr] at h
  have hdigits : Nat.toDigits 10 m = Nat.toDigits 10 n := by
    rw [← Nat.toList_repr, ← Nat.toList_repr, h]
  rw [← Nat.ofDigitChars_ten_toDigits (n := m), hdigits, Nat.ofDigitChars_ten_toDigits]

/-- The frame that is served is the newest one at some moment of the request. -/
theorem Working.served (h : Working site es i j es' t) {seq : ℕ} {jpeg : List UInt8}
    (hserved : Served site es i j es' seq jpeg) :
    ∃ st, During site es i j es' st ∧ st.frameSeq = seq ∧ st.frameJpeg = some jpeg := by
  obtain ⟨code, fields, hwire, hseq⟩ := hserved
  obtain ⟨reads, hreads, htells⟩ := h.tells hwire
  obtain ⟨st, hst, hv, hjpeg⟩ := htells.frame _ hseq
  exact ⟨st, hreads st hst, (toString_inj hv).symm, hjpeg⟩

variable {es₁ es₁' es₂ es₂' : List (Event Answer Job)} {t₁ t₂ : Threads State Answer Call}
  {i₁ i₂ : ℕ} {j₁ j₂ : Job}

/-- Of two moments of a run, one is not before the other. -/
theorem during_changes {R : State → State → Prop} (hR : Respects (changes site) R)
    (h₂ : Working site es₂ i₂ j₂ es₂' t₂)
    (hsame : es₁ ++ .start i₁ j₁ :: es₁' <+: es₂ ++ .start i₂ j₂ :: es₂') {st₁ st₂ : State}
    (hst₁ : During site es₁ i₁ j₁ es₁' st₁) (hst₂ : During site es₂ i₂ j₂ es₂' st₂) :
    R st₁ st₂ ∨ R st₂ st₁ := by
  obtain ⟨now₁, hnow₁, rfl⟩ := hst₁
  obtain ⟨now₂, hnow₂, rfl⟩ := hst₂
  have hextend : ∀ {es now es' : List (Event Answer Job)} {e : Event Answer Job}, now <+: es' →
      es ++ e :: now <+: es ++ e :: es' := by
    rintro es now es' e ⟨later, rfl⟩
    exact ⟨later, by simp⟩
  have hin₁ := (hextend hnow₁).trans hsame
  have hin₂ : es₂ ++ .start i₂ j₂ :: now₂ <+: es₂ ++ .start i₂ j₂ :: es₂' := hextend hnow₂
  rcases List.prefix_or_prefix_of_prefix hin₁ hin₂ with h | h
  · exact .inl (moment_changes hR h₂.run h hin₂)
  · exact .inr (moment_changes hR h₂.run h hin₁)

/-- What holds from a request to a later one. -/
theorem during_later {R : State → State → Prop} (hR : Respects (changes site) R)
    (h₂ : Working site es₂ i₂ j₂ es₂' t₂) (hlater : es₁ ++ .start i₁ j₁ :: es₁' <+: es₂)
    {st₁ st₂ : State} (hst₁ : During site es₁ i₁ j₁ es₁' st₁)
    (hst₂ : During site es₂ i₂ j₂ es₂' st₂) : R st₁ st₂ := by
  obtain ⟨now₁, ⟨later₁, rfl⟩, rfl⟩ := hst₁
  obtain ⟨now₂, ⟨later₂, rfl⟩, rfl⟩ := hst₂
  obtain ⟨between, rfl⟩ := hlater
  refine moment_changes hR h₂.run ⟨later₁ ++ between ++ .start i₂ j₂ :: now₂, ?_⟩ ⟨later₂, ?_⟩
  · simp
  · simp

/-- **The frames that clients get, by their numbers.**  Two answers of a run with one number have
the same bytes; a request begun after another was answered gets no older frame; and no answer is
older than the newest frame when it was asked for. -/
theorem frames_in_order (h₁ : Working site es₁ i₁ j₁ es₁' t₁) (h₂ : Working site es₂ i₂ j₂ es₂' t₂)
    (hsame : es₁ ++ .start i₁ j₁ :: es₁' <+: es₂ ++ .start i₂ j₂ :: es₂')
    {seq₁ seq₂ : ℕ} {jpeg₁ jpeg₂ : List UInt8} (hserved₁ : Served site es₁ i₁ j₁ es₁' seq₁ jpeg₁)
    (hserved₂ : Served site es₂ i₂ j₂ es₂' seq₂ jpeg₂) :
    (seq₁ = seq₂ → jpeg₁ = jpeg₂) ∧
      (es₁ ++ .start i₁ j₁ :: es₁' <+: es₂ → seq₁ ≤ seq₂) ∧
      (moment site es₂).frameSeq ≤ seq₂ := by
  obtain ⟨st₁, hst₁, rfl, hjpeg₁⟩ := h₁.served hserved₁
  obtain ⟨st₂, hst₂, rfl, hjpeg₂⟩ := h₂.served hserved₂
  refine ⟨fun hseq => ?_, fun hlater => ?_, ?_⟩
  · have hjpeg : st₁.frameJpeg = st₂.frameJpeg := by
      rcases during_changes newer_respects h₂ hsame hst₁ hst₂ with h | h
      · exact h.2 hseq
      · exact (h.2 hseq.symm).symm
    rw [hjpeg₁, hjpeg₂] at hjpeg
    exact Option.some.inj hjpeg
  · exact (during_later newer_respects h₂ hlater hst₁ hst₂).1
  · obtain ⟨now, ⟨later, rfl⟩, rfl⟩ := hst₂
    have hnow : es₂ ++ .start i₂ j₂ :: now <+: es₂ ++ .start i₂ j₂ :: (now ++ later) :=
      ⟨later, by simp⟩
    exact (moment_changes newer_respects h₂.run (List.prefix_append _ _) hnow).1

/-- The camera's next picture arrives. -/
def published (data : List UInt8) : List (Event Answer Job) :=
  [.start 1 (.onCompressed data "jpeg"), .acquire 1, .ask 1 {}, .update 1, .release 1]

/-- A request for a frame, from its start to its end. -/
def fetched : List (Event Answer Job) :=
  [.ask 0 {}, .update 0, .acquire 0, .read 0, .release 0, .client 0 {}, .client 0 {}]

/-- A picture, a request for it, and another picture. -/
def between : List (Event Answer Job) :=
  published [1] ++ .start 0 (.doGet "/frame.jpg" 0) :: fetched ++ published [2]

def frameFields (jpeg : List UInt8) (seq : ℕ) : List (String × String) :=
  contentFields "image/jpeg" jpeg ++ [("Cache-Control", "no-store"), ("X-Frame-Seq", toString seq)]

theorem fetched_working (es : List (Event Answer Job))
    (h : (console plainSite).Admits start (es ++ .start 0 (.doGet "/frame.jpg" 0) :: fetched)) :
    Working plainSite es 0 (.doGet "/frame.jpg" 0) fetched
      ((es ++ .start 0 (.doGet "/frame.jpg" 0) :: fetched).foldl (console plainSite).act
        start) where
  run := .of_admits h
  busy := by simp [fetched]

theorem frames_in_order_between : (moment plainSite between).frameSeq ≤ 2 := by
  have h₁ := fetched_working (published [1]) (by decide +kernel)
  have h₂ := fetched_working between (by decide +kernel)
  have hserved₁ : Served plainSite (published [1]) 0 (.doGet "/frame.jpg" 0) fetched 1 [1] :=
    ⟨200, frameFields [1] 1, by decide +kernel, by decide +kernel⟩
  have hserved₂ : Served plainSite between 0 (.doGet "/frame.jpg" 0) fetched 2 [2] :=
    ⟨200, frameFields [2] 2, by decide +kernel, by decide +kernel⟩
  have hsame : published [1] ++ .start 0 (.doGet "/frame.jpg" 0) :: fetched <+:
      between ++ .start 0 (.doGet "/frame.jpg" 0) :: fetched :=
    ⟨published [2] ++ .start 0 (.doGet "/frame.jpg" 0) :: fetched, by simp [between]⟩
  exact (frames_in_order h₁ h₂ hsame hserved₁ hserved₂).2.2

end JetsonPerception.Console.Lock
