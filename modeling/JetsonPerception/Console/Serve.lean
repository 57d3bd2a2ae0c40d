/-
# What the console does to its state, and what it writes

The programs of `JetsonPerception.Console.Lock` under one contract, settled function by function:
every update is one of the eleven a `Change` names, and a handler's calls to its client are one
response, its headers, then the body they announce.

| a handler | has read, at some point of its request |
| :-- | :-- |
| of `/frame.jpg` | the state that has the frame it writes, under the number it writes |
| of `/api/can` | the state whose newest frames it writes |

All that is read is the shared state of that moment, so these facts hold of the runs of the
console, with any number of threads.
-/
import JetsonPerception.Console.Lock
import JetsonPerception.Lib.Contract
import Mathlib.Data.List.TakeWhile

namespace JetsonPerception.Console.Lock

open Monitor Post

/-! ## What changes the state -/

/-- What an update of the state can be. -/
inductive Change (site : Site) (st : State) : State → Prop
  | frame (data : List UInt8) (format : String) (now : ℚ) :
      Change site st { st with
        frameJpeg := some data
        frameSeq := st.frameSeq + 1
        encoding := format
        frameTimes := (st.frameTimes ++ [now]).drop (st.frameTimes.length + 1 - 90) }
  | rate (data : ℚ) : Change site st { st with publisherHz := some data }
  | info (loaded : Bool) (name : String) (h : loaded = false → name = "") :
      Change site st { st with calibrated := loaded, calibName := name }
  | imageSub (sub : Bool) : Change site st { st with imageSub := sub }
  | canStatus (text : String) : Change site st { st with canStatus := text }
  | canFrame (raw : List UInt8) (entry : CanEntry) (now : ℚ) (h : parseCanFrame raw = some entry) :
      Change site st { st with
        canFrames := ((entry, roundTo 3 now) :: st.canFrames).take site.canHistory
        canCount := st.canCount + 1 }
  | started (proc : ℕ) (stamp : String) (now : ℚ) :
      Change site st { st with
        recording := some proc
        recordPath := recordPath site.toConfig stamp
        recordStarted := now }
  | stopped : Change site st { st with recording := none }
  | dimsChecked (now : ℚ) : Change site st { st with dimsChecked := now }
  | dims (width height : ℕ) : Change site st { st with width := width, height := height }
  | frameRequest (now : ℚ) : Change site st { st with lastFrameRequest := now }

/-- What is known of the bus. -/
structure Bus where
  status : String
  count : ℕ
  frames : List (CanEntry × ℚ)

def State.bus (st : State) : Bus := ⟨st.canStatus, st.canCount, st.canFrames⟩

/-! ## What is written -/

/-- A call that raises what no handler of a GET catches. -/
def Call.raises : Call → Bool
  | .readFile _ | .imdecode _ | .cpuPercent | .gpuPercent | .powerMode | .socTempC => true
  | _ => false

/-- What a thread has noted: the states it has read, the files it has found to be there, whether
such a call has raised, what it has written to its client, and whether the client has failed it.
`reader` is the thread's own: it runs `can_reader`. -/
structure Desk where
  reader : Bool := false
  reads : List State := []
  files : List String := []
  raised : Bool := false
  wire : List Call := []
  broken : Bool := false

def Desk.note (g : Desk) : Seen State Answer Call → Desk
  | .read st => { g with reads := st :: g.reads }
  | .ask (.isFile path) a => { g with files := if a.ok then path :: g.files else g.files }
  | .ask call a => { g with raised := (call.raises && !a.ok) || g.raised }
  | .client (.read _) a => { g with broken := g.broken || !a.ok }
  | .client call a =>
      { g with wire := if a.ok then g.wire ++ [call] else g.wire, broken := g.broken || !a.ok }

/-- What a response says of the states that were read for it. -/
structure Tells (site : Site) (target : String) (reads : List State)
    (fields : List (String × String)) (body : List UInt8) : Prop where
  frame : ∀ v, fields.lookup "X-Frame-Seq" = some v →
    ∃ st ∈ reads, v = toString st.frameSeq ∧ st.frameJpeg = some body
  can : pathOf target = "/api/can" → ∃ st ∈ reads, body = site.dumpsCan (st.canFrames.take 80)

/-- The file is directly in the web root: its name has no slash. -/
def InWebRoot (site : Site) (path : String) : Prop :=
  ∃ name : String, '/' ∉ name.toList ∧ path = pathJoin site.webRoot name

/-- A whole response has been written. -/
def Desk.Answered (g : Desk) : Prop :=
  ∃ code fields body, g.wire = [.headers code fields, .body body]

/-- What a thread with these notes may do; `owes` a response, when it ends, or not. -/
def Desk.allows (site : Site) (target : String) (owes : Bool) (g : Desk) : Doing State Call → Prop
  | .update f => (∀ st, Change site st (f st)) ∧ (g.reader = false → ∀ st, (f st).bus = st.bus)
  | .ask (.isFile path) => InWebRoot site path
  | .ask (.readFile path) => InWebRoot site path ∧ path ∈ g.files
  | .ask _ => True
  | .client (.read _) => True
  | .client (.headers _ _) => g.wire = [] ∧ g.broken = false
  | .client (.body body) => g.broken = false ∧ ∃ code fields, g.wire = [.headers code fields] ∧
      fields.lookup "Content-Length" = some (toString body.length) ∧
      Tells site target g.reads fields body
  | .client _ => False
  | .done => owes = true → g.Answered ∨ g.broken = true ∨ g.raised = true

def desk (site : Site) (target : String) (owes : Bool) : Contract State Answer Call Desk :=
  ⟨Desk.note, Desk.allows site target owes⟩

variable {site : Site} {target : String} {owes : Bool} {g : Desk}

/-- More states have been read. -/
def Desk.after (g : Desk) (new : List State) : Desk := { g with reads := new ++ g.reads }

/-- The thread owes its client nothing more, or cannot pay. -/
def Desk.Settled (g : Desk) : Prop := g.Answered ∨ g.broken = true ∨ g.raised = true

/-- Nothing has been written, and nothing has gone wrong. -/
def Desk.Silent (g : Desk) : Prop := g.wire = [] ∧ g.broken = false

theorem Desk.after_after (g : Desk) (new new' : List State) :
    (g.after new).after new' = g.after (new' ++ new) := by
  simp [Desk.after]

/-- More states read tell no less. -/
theorem Tells.mono {reads reads' : List State} {fields : List (String × String)}
    {body : List UInt8} (h : Tells site target reads fields body) (hsub : reads ⊆ reads') :
    Tells site target reads' fields body where
  frame v hv := by
    obtain ⟨st, hst, hframe⟩ := h.frame v hv
    exact ⟨st, hsub hst, hframe⟩
  can hpath := by
    obtain ⟨st, hst, hbody⟩ := h.can hpath
    exact ⟨st, hsub hst, hbody⟩

/-! ## Function by function -/

theorem done_honours (hg : g.Settled) : (Prog.done : Program).Honours (desk site target owes) g :=
  fun _ => hg

theorem polls_honours {proc : Option ℕ} {k : Bool → Program}
    (hk : ∀ b, (k b).Honours (desk site target owes) g) :
    (polls proc k).Honours (desk site target owes) g := by
  cases proc with
  | none => exact hk false
  | some p => exact ⟨trivial, fun a => hk a.ok⟩

theorem readDims_honours {k : ℕ → ℕ → Program}
    (hk : ∀ new w h, (k w h).Honours (desk site target owes) (g.after new)) :
    (readDims k).Honours (desk site target owes) g :=
  fun st => hk [st] _ _

theorem getFrame_honours {k : Option (List UInt8) → ℕ → Program}
    (hk : ∀ st : State,
      (k st.frameJpeg st.frameSeq).Honours (desk site target owes) (g.after [st])) :
    (getFrame k).Honours (desk site target owes) g := hk

/-- What a call of a GET handler raises ends the handler. -/
theorem raising_honours {call : Call} {p : Answer → Program}
    (hcall : call.raises = true ∧ (∀ path, call ≠ .isFile path) ∧ ∀ path, call ≠ .readFile path)
    (hp : ∀ a, a.ok = true → (p a).Honours (desk site target owes) g) :
    (Prog.ask call fun a => if a.ok then p a else .done).Honours (desk site target owes) g := by
  obtain ⟨hraises, hfile, hread⟩ := hcall
  have hallows : Desk.allows site target owes g (.ask call) := by
    cases call with
    | isFile path => exact absurd rfl (hfile path)
    | readFile path => exact absurd rfl (hread path)
    | _ => trivial
  have hnote : ∀ a, g.note (.ask call a) = { g with raised := !a.ok || g.raised } := by
    intro a
    cases call with
    | isFile path => exact absurd rfl (hfile path)
    | _ => simp_all [Desk.note]
  refine ⟨hallows, fun a => Prog.Honours.ite (fun ha => ?_) fun ha => done_honours ?_⟩
  · show (p a).Honours (desk site target owes) (g.note (.ask call a))
    rw [hnote, ha]
    exact hp a ha
  · refine .inr (.inr ?_)
    show (g.note (.ask call a)).raised = true
    simp [hnote, ha]

theorem dims_honours {k : ℕ → ℕ → Program}
    (hk : ∀ new w h, (k w h).Honours (desk site target owes) (g.after new)) :
    (dims k).Honours (desk site target owes) g := by
  have hread : ∀ new, (readDims k).Honours (desk site target owes) (g.after new) := by
    intro new
    refine readDims_honours fun new' w h => ?_
    rw [Desk.after_after]
    exact hk _ w h
  refine ⟨trivial, fun now st => Prog.Honours.ite (fun _ => ⟨?_, ?_⟩) fun _ => hread [st]⟩
  · exact ⟨fun st => .dimsChecked _, fun _ _ => rfl⟩
  · refine getFrame_honours fun st' => ?_
    cases st'.frameJpeg with
    | none => exact hread [st', st]
    | some jpeg =>
        refine raising_honours ⟨rfl, nofun, nofun⟩ fun a _ => ?_
        cases a.size with
        | none => exact hread [st', st]
        | some size => exact ⟨⟨fun st => .dims _ _, fun _ _ => rfl⟩, hread [st', st]⟩

theorem elapsed_honours {st : State} {rec : Bool} {k : ℚ → Program}
    (hk : ∀ t, (k t).Honours (desk site target owes) g) :
    (elapsed st rec k).Honours (desk site target owes) g :=
  Prog.Honours.ite (fun _ => ⟨trivial, fun _ => hk _⟩) fun _ => hk 0

theorem connected_honours {st : State} {k : Bool → Program}
    (hk : ∀ b, (k b).Honours (desk site target owes) g) :
    (connected st k).Honours (desk site target owes) g := by
  rw [connected]
  cases st.frameTimes.getLast? with
  | none => exact hk false
  | some last => exact ⟨trivial, fun _ => hk _⟩

theorem sizeMb_honours {st : State} {rec : Bool} {k : ℚ → Program}
    (hk : ∀ mb, (k mb).Honours (desk site target owes) g) :
    (sizeMb st rec k).Honours (desk site target owes) g :=
  Prog.Honours.ite (fun _ => ⟨trivial, fun _ => hk _⟩) fun _ => hk 0

theorem status_honours {k : Status → Program}
    (hk : ∀ new p, (k p).Honours (desk site target owes) (g.after new)) :
    (status site k).Honours (desk site target owes) g := by
  intro st
  refine polls_honours fun rec => elapsed_honours fun _ => connected_honours fun _ => ?_
  refine sizeMb_honours fun _ st' => dims_honours fun new _ _ => ?_
  refine raising_honours ⟨rfl, nofun, nofun⟩ fun _ _ => ?_
  refine raising_honours ⟨rfl, nofun, nofun⟩ fun _ _ => ?_
  refine raising_honours ⟨rfl, nofun, nofun⟩ fun _ _ => ?_
  refine raising_honours ⟨rfl, nofun, nofun⟩ fun _ _ => ⟨trivial, fun _ => ?_⟩
  show (k _).Honours (desk site target owes) ((g.after [st', st]).after new)
  rw [Desk.after_after]
  exact hk _ _

theorem startRecording_honours {k : Option String → Program}
    (hk : ∀ new err, (k err).Honours (desk site target owes) (g.after new)) :
    (startRecording site k).Honours (desk site target owes) g := by
  intro st
  refine polls_honours fun rec => Prog.Honours.ite (fun _ => hk [st] _) fun _ => ?_
  refine ⟨trivial, fun disk => Prog.Honours.ite (fun _ => hk [st] _) fun _ => ?_⟩
  refine ⟨trivial, fun stamp => ⟨trivial, fun a => ?_⟩⟩
  refine Prog.Honours.ite (fun _ => ⟨trivial, fun now => ?_⟩) fun _ => hk [st] _
  exact ⟨⟨fun _ => .started _ _ _, fun _ _ => rfl⟩, hk [st] _⟩

theorem stopRecording_honours {k : Option String → Program}
    (hk : ∀ new err, (k err).Honours (desk site target owes) (g.after new)) :
    (stopRecording k).Honours (desk site target owes) g := by
  intro st
  refine ⟨⟨fun _ => .stopped, fun _ _ => rfl⟩, ?_⟩
  cases st.recording with
  | none => exact hk [st] _
  | some proc =>
      refine ⟨trivial, fun a => Prog.Honours.ite (fun _ => ?_) fun _ => hk [st] _⟩
      refine ⟨trivial, fun _ => ⟨trivial, fun a => ?_⟩⟩
      exact Prog.Honours.ite (fun _ => hk [st] _) fun _ => ⟨trivial, fun _ => hk [st] _⟩

/-! ## Responses -/

/-- A response is written, and is whole if the client takes it. -/
theorem respond_honours {code : ℕ} {fields : List (String × String)} {body : List UInt8}
    {k : Program} (hg : g.Silent)
    (hlength : fields.lookup "Content-Length" = some (toString body.length))
    (htells : Tells site target g.reads fields body)
    (hk : ∀ g' : Desk, g'.Settled → k.Honours (desk site target owes) g') :
    (respond code fields body k).Honours (desk site target owes) g := by
  refine ⟨hg, fun a => Prog.Honours.ite (fun ha => ?_) fun ha => ?_⟩
  · have hnote : Desk.note g (.client (.headers code fields) a) =
        { g with wire := [.headers code fields], broken := false } := by
      simp [Desk.note, ha, hg.1, hg.2]
    refine ⟨?_, fun b => ?_⟩
    · show Desk.allows site target owes (Desk.note g (.client (.headers code fields) a))
        (.client (.body body))
      rw [hnote]
      exact ⟨rfl, code, fields, rfl, hlength, htells⟩
    · show k.Honours (desk site target owes)
        (Desk.note (Desk.note g (.client (.headers code fields) a)) (.client (.body body) b))
      rw [hnote]
      refine hk _ ?_
      cases hb : b.ok with
      | false => exact .inr (.inl (by simp [Desk.note, hb]))
      | true => exact .inl ⟨code, fields, body, by simp [Desk.note, hb]⟩
  · refine hk _ (.inr (.inl ?_))
    show (g.broken || !a.ok) = true
    simp [ha]

/-- A response that says nothing of the state. -/
theorem tells_nothing {fields : List (String × String)} {body : List UInt8}
    (hframe : fields.lookup "X-Frame-Seq" = none) (hcan : pathOf target ≠ "/api/can")
    (reads : List State) : Tells site target reads fields body where
  frame v hv := by
    rw [hframe] at hv
    cases hv
  can h := absurd h hcan

theorem contentFields_length (contentType : String) (body : List UInt8) :
    (contentFields contentType body).lookup "Content-Length" = some (toString body.length) := by
  simp [contentFields, List.lookup_cons]

theorem contentFields_frame (contentType : String) (body : List UInt8) :
    (contentFields contentType body).lookup "X-Frame-Seq" = none := by
  simp [contentFields, List.lookup_cons]

theorem sendError_honours (hg : g.Silent) (hcan : pathOf target ≠ "/api/can") (code : ℕ)
    (message : Option String) :
    (sendError site code message).Honours (desk site target owes) g := by
  refine respond_honours hg ?_ (tells_nothing ?_ hcan _) fun _ => done_honours
  · simp [contentFields, List.lookup_cons]
  · simp [contentFields, List.lookup_cons]

theorem basename_no_slash (path : String) : '/' ∉ (basename path).toList := by
  rw [basename, String.toList_ofList, List.mem_reverse]
  intro h
  simpa using List.mem_takeWhile_imp h

theorem static_honours (hg : g.Silent) (hcan : pathOf target ≠ "/api/can") {name : String}
    (hname : '/' ∉ name.toList) :
    (static site name).Honours (desk site target owes) g := by
  have hroot : InWebRoot site (pathJoin site.webRoot name) := ⟨name, hname, rfl⟩
  have hg' : ∀ a, (g.note (.ask (.isFile (pathJoin site.webRoot name)) a)).Silent := fun _ => hg
  refine ⟨hroot, fun a => Prog.Honours.ite (fun ha => ⟨⟨hroot, ?_⟩, fun file => ?_⟩) fun _ => ?_⟩
  · show pathJoin site.webRoot name ∈ (if a.ok then _ :: g.files else g.files)
    rw [if_pos ha]
    exact List.mem_cons_self ..
  · refine Prog.Honours.ite (fun hok => ?_) fun hbad => done_honours (.inr (.inr ?_))
    · refine respond_honours (hg' a) (contentFields_length ..) ?_ fun _ => done_honours
      exact tells_nothing (contentFields_frame ..) hcan _
    · show ((true && !file.ok) || _) = true
      simp [hbad]
  · exact sendError_honours (hg' a) hcan 404 none

theorem waitNewer_honours {since : ℤ} {deadline : ℚ} {k : Program} (polls : ℕ) : ∀ {g : Desk},
    (∀ new, k.Honours (desk site target owes) (g.after new)) →
    (waitNewer since deadline k polls).Honours (desk site target owes) g := by
  induction polls with
  | zero =>
      intro g hk st
      exact Prog.Honours.ite (fun _ => ⟨trivial, fun _ => hk [st]⟩) fun _ => hk [st]
  | succ polls ih =>
      intro g hk st
      refine Prog.Honours.ite (fun _ => ⟨trivial, fun now => ?_⟩) fun _ => hk [st]
      refine Prog.Honours.ite (fun _ => ⟨trivial, fun _ => ih fun new => ?_⟩) fun _ => hk [st]
      show k.Honours (desk site target owes) ((g.after [st]).after new)
      rw [Desk.after_after]
      exact hk _

theorem answerFrame_honours (hg : g.Silent) (hpath : pathOf target = "/frame.jpg") :
    (answerFrame site).Honours (desk site target owes) g := by
  have hcan : pathOf target ≠ "/api/can" := by simp [hpath]
  refine getFrame_honours fun st => ?_
  have hsilent : (g.after [st]).Silent := hg
  cases hjpeg : st.frameJpeg with
  | none => exact sendError_honours hsilent hcan 503 _
  | some jpeg =>
      refine respond_honours hsilent ?_ ⟨?_, fun h => absurd h hcan⟩ fun _ => done_honours
      · simp [contentFields, List.lookup_cons]
      · intro v hv
        have hv : some (toString st.frameSeq) = some v := by
          simpa [contentFields, List.lookup_cons] using hv
        exact ⟨st, by simp [Desk.after], (Option.some.inj hv).symm, hjpeg⟩

theorem frame_honours (hg : g.Silent) (hpath : pathOf target = "/frame.jpg") (polls : ℕ) :
    (frame site target polls).Honours (desk site target owes) g := by
  refine ⟨trivial, fun now => ⟨⟨fun _ => .frameRequest _, fun _ _ => rfl⟩, ?_⟩⟩
  refine Prog.Honours.ite (fun _ => ⟨trivial, fun now => ?_⟩) fun _ => answerFrame_honours hg hpath
  exact waitNewer_honours polls fun new => answerFrame_honours hg hpath

theorem doGet_honours (hg : g.Silent) (polls : ℕ) :
    (doGet site target polls).Honours (desk site target owes) g := by
  have hindex : '/' ∉ "index.html".toList := by decide
  refine Prog.Honours.ite (fun h => static_honours hg ?_ hindex) fun _ => ?_
  · rcases h with h | h <;> rw [h] <;> decide
  refine Prog.Honours.ite (fun h => status_honours fun new p => ?_) fun _ => ?_
  · have hg' : (g.after new).Silent := hg
    have hcan : pathOf target ≠ "/api/can" := by
      rw [h]
      decide
    refine respond_honours hg' (contentFields_length ..) ?_ fun _ => done_honours
    exact tells_nothing (contentFields_frame ..) hcan _
  refine Prog.Honours.ite (fun h => fun st => ?_) fun hcan => ?_
  · have hg' : (g.after [st]).Silent := hg
    refine respond_honours hg' (contentFields_length ..) ⟨?_, ?_⟩ fun g' hg' => ?_
    · intro v hv
      rw [contentFields_frame] at hv
      cases hv
    · exact fun _ => ⟨st, List.mem_cons_self .., rfl⟩
    · exact done_honours hg'
  refine Prog.Honours.ite (fun h => frame_honours hg h polls) fun _ => ?_
  refine Prog.Honours.ite (fun _ => static_honours hg hcan (basename_no_slash _)) fun _ => ?_
  exact sendError_honours hg hcan 404 none

/-! ## Requests that change something -/

theorem jsonDict_honours (hg : g.Silent) (hcan : pathOf target ≠ "/api/can") (code : ℕ)
    (fields : List (String × Json)) :
    (jsonDict site code fields).Honours (desk site target owes) g :=
  respond_honours hg (contentFields_length ..)
    (tells_nothing (contentFields_frame ..) hcan _) fun _ => done_honours

theorem snapshot_honours {k : Option String → Option String → Program}
    (hk : ∀ new p err, (k p err).Honours (desk site target false) (g.after new)) :
    (snapshot site k).Honours (desk site target false) g := by
  refine getFrame_honours fun st => ?_
  cases st.frameJpeg with
  | none => exact hk [st] _ _
  | some jpeg =>
      refine ⟨trivial, fun stamp => ⟨trivial, fun a => ?_⟩⟩
      exact Prog.Honours.ite (fun _ => hk [st] _ _) fun _ => nofun

theorem postCanSend_honours (hg : g.Silent) (hcan : pathOf target ≠ "/api/can") (body : Json) :
    (postCanSend site body).Honours (desk site target false) g := by
  cases body with
  | dict kvs =>
      refine ⟨trivial, fun a => ?_⟩
      dsimp only
      cases (Console.postCanSend site.lib.toPython a.net kvs).reply with
      | none => exact nofun
      | json status ok err => exact jsonDict_honours hg hcan _ _
  | _ => exact nofun

theorem postLoaded_honours (hg : g.Silent) (hcan : pathOf target ≠ "/api/can") (path : String)
    (loaded : Except LoadError Json) :
    (postLoaded site path loaded).Honours (desk site target false) g := by
  have hjson : ∀ new code fields,
      (jsonDict site code fields).Honours (desk site target false) (g.after new) :=
    fun new => jsonDict_honours (g := g.after new) hg hcan
  match loaded with
  | .error .valueError => exact hjson [] _ _
  | .error .recursionError => exact nofun
  | .ok body =>
      refine Prog.Honours.ite (fun _ => ?_) fun _ => Prog.Honours.ite (fun _ => ?_) fun _ => ?_
      · exact startRecording_honours fun new _ => hjson new _ _
      · exact stopRecording_honours fun new _ => hjson new _ _
      refine Prog.Honours.ite (fun _ => ?_) fun _ => Prog.Honours.ite (fun _ => ?_) fun _ => ?_
      · exact snapshot_honours fun new _ _ => hjson new _ _
      · exact postCanSend_honours hg hcan body
      · exact sendError_honours hg hcan 404 none

theorem doPost_honours (hcan : pathOf target ≠ "/api/can") (path : String) (length : ℕ) :
    (doPost site path length).Honours (desk site target false) {} := by
  have hsilent : ({} : Desk).Silent := ⟨rfl, rfl⟩
  refine Prog.Honours.ite (fun _ => postLoaded_honours hsilent hcan _ _) fun _ => ?_
  refine ⟨trivial, fun a => Prog.Honours.ite (fun ha => ?_) fun _ => nofun⟩
  refine postLoaded_honours ⟨rfl, ?_⟩ hcan _ _
  show (false || !a.ok) = false
  simp [ha]

/-! ## The other threads -/

theorem manageImageSub_honours : manageImageSub.Honours (desk site target false) g := by
  refine ⟨trivial, fun now => fun st => Prog.Honours.ite (fun _ => ?_) fun _ => ?_⟩
  · exact ⟨trivial, fun _ => ⟨⟨fun _ => .imageSub true, fun _ _ => rfl⟩, nofun⟩⟩
  · refine Prog.Honours.ite (fun _ => ?_) fun _ => nofun
    exact ⟨trivial, fun _ => ⟨⟨fun _ => .imageSub false, fun _ _ => rfl⟩, nofun⟩⟩

theorem setCanStatus_honours (hreader : g.reader = true) {text : String} {k : Program}
    (hk : k.Honours (desk site target false) g) :
    (setCanStatus text k).Honours (desk site target false) g := by
  refine ⟨⟨fun _ => .canStatus text, fun hnot => ?_⟩, hk⟩
  rw [hreader] at hnot
  cases hnot

theorem canReader_honours (hreader : g.reader = true) (turns : ℕ) : ∀ listening,
    (canReader site listening turns).Honours (desk site target false) g := by
  induction turns with
  | zero =>
      intro listening
      refine ⟨trivial, fun _ => ?_⟩
      exact Prog.Honours.ite (fun _ => ⟨trivial, fun _ => nofun⟩) fun _ => nofun
  | succ turns ih =>
      intro listening
      refine ⟨trivial, fun _ => Prog.Honours.ite (fun _ => ⟨trivial, fun a => ?_⟩) fun _ => ?_⟩
      · refine Prog.Honours.ite (fun _ => ?_) fun _ => ?_
        · cases hentry : parseCanFrame a.bytes with
          | none => exact ih true
          | some entry =>
              refine ⟨trivial, fun now => ⟨⟨fun _ => ?_, fun hnot => ?_⟩, ih true⟩⟩
              · exact .canFrame _ _ _ hentry
              · have hnot : g.reader = false := hnot
                rw [hreader] at hnot
                cases hnot
        · refine Prog.Honours.ite (fun _ => ih true) fun _ => ?_
          exact setCanStatus_honours hreader ⟨trivial, fun _ => ih false⟩
      · refine ⟨trivial, fun a => Prog.Honours.ite (fun _ => ?_) fun _ => ?_⟩
        · exact setCanStatus_honours hreader (ih true)
        · exact setCanStatus_honours hreader ⟨trivial, fun _ => ih false⟩

/-- The target of a GET. -/
def Job.getTarget : Job → String
  | .doGet target _ => target
  | _ => ""

/-- Only a GET is held to its response here. -/
def Job.isGet : Job → Bool
  | .doGet .. => true
  | _ => false

def Job.isReader : Job → Bool
  | .canReader _ => true
  | _ => false

/-- The notes with which a job begins. -/
def Job.opening (j : Job) : Desk := { reader := j.isReader }

/-- **Every job honours its contract.** -/
theorem job_honours (j : Job) : (job site j).Honours (desk site j.getTarget j.isGet) j.opening := by
  have hcan : pathOf "" ≠ "/api/can" := by decide
  cases j with
  | doGet target polls => exact doGet_honours ⟨rfl, rfl⟩ polls
  | doPost target length => exact doPost_honours hcan target length
  | onCompressed data format =>
      exact ⟨trivial, fun now => ⟨⟨fun _ => .frame _ _ _, fun _ _ => rfl⟩, nofun⟩⟩
  | onRate data => exact ⟨⟨fun _ => .rate _, fun _ _ => rfl⟩, nofun⟩
  | onInfo matrix distortionModel =>
      refine ⟨⟨fun _ => .info _ _ fun hloaded => ?_, fun _ _ => rfl⟩, nofun⟩
      rw [hloaded]
      rfl
  | manageImageSub => exact manageImageSub_honours
  | canReader turns => exact canReader_honours rfl turns false
  | destroyNode =>
      exact ⟨trivial, fun _ => stopRecording_honours fun _ _ =>
        ⟨trivial, fun _ => ⟨trivial, fun _ => nofun⟩⟩⟩

/-! ## All the threads -/

/-- The contract as far as it is the same for all jobs. -/
def changes (site : Site) : Contract State Answer Call Unit where
  note g _ := g
  allows _
    | .update f => ∀ st, Change site st (f st)
    | _ => True

theorem starts_change (s : Threads State Answer Call) (e : Event Answer Job) :
    StartsHonour (changes site) (job site) s e := by
  intro i j _
  refine ⟨(), (job_honours j).weaken (fun _ => ()) (fun _ _ => rfl) fun g d h => ?_⟩
  cases d with
  | update f => exact h.1
  | _ => trivial

theorem allHonour_start : AllHonour (changes site) start := fun _ => ⟨(), trivial⟩

variable {es es' : List (Event Answer Job)} {s t : Threads State Answer Call} {i : ℕ} {j : Job}

theorem restrict_changes (h : (console site).Run s es t) :
    ((machine (job site)).restrict (StartsHonour (changes site) (job site))).Run s es t :=
  h.restrict_of fun s e _ => starts_change s e

/-- What every change respects holds between a state that is reached and any later one. -/
theorem changes_run {R : State → State → Prop} (hR : Respects (changes site) R)
    (h : (console site).Run start es s) (h' : (console site).Run s es' t) :
    R s.shared t.shared := by
  have hall := (Run.changes hR (restrict_changes h) allHonour_start).2
  exact (Run.changes hR (restrict_changes h') hall).1

end JetsonPerception.Console.Lock
