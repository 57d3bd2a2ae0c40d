/-
# What has nothing to do with it

A protocol of `JetsonPerception.Lib.Protocol` is about a part of `State` and a few calls.  Whatever
the part is, of `state.recording` and `state.frame_jpeg`, most of what the console runs leaves it
alone, and never spawns, kills or saves anything.  Where the protocol lets a thread do so and stay
where it is (`Bystands`), these functions follow it, one by one and once for every protocol.

| left to the protocol | because of |
| :-- | :-- |
| `start_recording`, `stop_recording`, `destroy_node` | `state.recording`, the processes |
| `_on_compressed` | `state.frame_jpeg` |
| `snapshot` | the file |
-/
import JetsonPerception.Console.Lock
import JetsonPerception.Lib.Protocol

namespace JetsonPerception.Console.Lock

open Monitor Post

/-- A call that neither spawns, stops nor saves anything, nor dates it. -/
def Call.plain : Call → Bool
  | .strftime | .popen _ | .terminate _ | .wait _ | .kill _ | .save .. => false
  | _ => true

/-- A thread may look on from this stage. -/
structure Bystands {β τ : Type} (P : Protocol State Answer Call Job β τ) (l : τ) : Prop where
  acquire : P.moves l .acquire l
  release : ∀ b, P.moves l (.release b) l
  update : ∀ b, P.moves l (.update b b) l
  ask : ∀ known call a, call.plain = true → P.moves l (.ask known call a) l
  part : ∀ st st', st'.recording = st.recording → st'.frameJpeg = st.frameJpeg →
    P.part st' = P.part st

variable {β τ : Type} {P : Protocol State Answer Call Job β τ} {l : τ} {known : Option β}
  {site : Site}

/-! ## Sections -/

theorem ask_follows (hl : Bystands P l) {call : Call} {k : Answer → Program}
    (hcall : call.plain = true) (hk : ∀ a, (k a).Follows P l known) :
    (Prog.ask call k).Follows P l known :=
  fun a => ⟨l, hl.ask known call a hcall, hk a⟩

/-- The part is not changed. -/
def Leaves (f : State → State) : Prop :=
  ∀ st, (f st).recording = st.recording ∧ (f st).frameJpeg = st.frameJpeg

theorem update_follows (hl : Bystands P l) {f : State → State} {k : Program} (hf : Leaves f)
    (hk : k.Follows P l known) : (Prog.update f k).Follows P l known := by
  have hpart : ∀ st, P.part (f st) = P.part st := fun st => hl.part st (f st) (hf st).1 (hf st).2
  cases known with
  | none => exact ⟨hpart, hk⟩
  | some b => exact ⟨b, l, fun st hst => (hpart st).trans hst, hl.update b, hk⟩

theorem acquire_follows (hl : Bystands P l) {k : Program} (hk : ∀ b, k.Follows P l (some b)) :
    (Prog.acquire k).Follows P l none :=
  ⟨rfl, l, hl.acquire, hk⟩

theorem release_follows (hl : Bystands P l) {k : Program} {b : β} (hk : k.Follows P l none) :
    (Prog.release k).Follows P l (some b) :=
  ⟨b, l, rfl, hl.release b, hk⟩

/-- A section that only reads. -/
theorem section_follows (hl : Bystands P l) {k : State → Program}
    (hk : ∀ st, (k st).Follows P l none) :
    (Prog.acquire <| .read fun st => .release <| k st).Follows P l none :=
  acquire_follows hl fun _ st _ => release_follows hl (hk st)

/-- A section that only writes something else. -/
theorem write_follows (hl : Bystands P l) {f : State → State} {k : Program} (hf : Leaves f)
    (hk : k.Follows P l none) : (Prog.acquire <| .update f <| .release k).Follows P l none :=
  acquire_follows hl fun _ => update_follows hl hf (release_follows hl hk)

theorem done_follows (hl : P.rests l) : (Prog.done : Program).Follows P l none := ⟨rfl, hl⟩

/-! ## Reading the state -/

theorem monotonic_follows (hl : Bystands P l) {k : ℚ → Program}
    (hk : ∀ now, (k now).Follows P l known) : (monotonic k).Follows P l known :=
  ask_follows hl rfl fun a => hk a.now

theorem polls_follows (hl : Bystands P l) {proc : Option ℕ} {k : Bool → Program}
    (hk : ∀ b, (k b).Follows P l known) : (polls proc k).Follows P l known := by
  cases proc with
  | none => exact hk false
  | some p => exact ask_follows hl rfl fun a => hk a.ok

theorem dims_follows (hl : Bystands P l) (hrests : P.rests l) {k : ℕ → ℕ → Program}
    (hk : ∀ w h, (k w h).Follows P l none) : (dims k).Follows P l none := by
  have hread : (readDims k).Follows P l none := section_follows hl fun st => hk _ _
  refine monotonic_follows hl fun now st _ => .ite (fun _ => ?_) fun _ => hread
  refine update_follows hl (fun _ => ⟨rfl, rfl⟩) (section_follows hl fun st => ?_)
  cases st.frameJpeg with
  | none => exact hread
  | some jpeg =>
      refine ask_follows hl rfl fun a => .ite (fun _ => ?_) fun _ => done_follows hrests
      cases a.size with
      | none => exact hread
      | some size => exact write_follows hl (fun _ => ⟨rfl, rfl⟩) hread

theorem reading_follows (hl : Bystands P l) (hrests : P.rests l) {call : Call}
    {k : Answer → Program} (hcall : call.plain = true) (hk : ∀ a, (k a).Follows P l none) :
    (reading call k).Follows P l none :=
  ask_follows hl hcall fun a => .ite (fun _ => hk a) fun _ => done_follows hrests

theorem elapsed_follows (hl : Bystands P l) {st : State} {rec : Bool} {k : ℚ → Program}
    (hk : ∀ t, (k t).Follows P l known) : (elapsed st rec k).Follows P l known :=
  .ite (fun _ => monotonic_follows hl fun _ => hk _) fun _ => hk 0

theorem connected_follows (hl : Bystands P l) {st : State} {k : Bool → Program}
    (hk : ∀ b, (k b).Follows P l known) : (connected st k).Follows P l known := by
  rw [connected]
  cases st.frameTimes.getLast? with
  | none => exact hk false
  | some last => exact monotonic_follows hl fun _ => hk _

theorem sizeMb_follows (hl : Bystands P l) {st : State} {rec : Bool} {k : ℚ → Program}
    (hk : ∀ mb, (k mb).Follows P l known) : (sizeMb st rec k).Follows P l known :=
  .ite (fun _ => ask_follows hl rfl fun _ => hk _) fun _ => hk 0

theorem status_follows (hl : Bystands P l) (hrests : P.rests l) {k : Status → Program}
    (hk : ∀ p, (k p).Follows P l none) : (status site k).Follows P l none := by
  refine acquire_follows hl fun b st _ => polls_follows hl fun rec => ?_
  refine elapsed_follows hl fun _ => connected_follows hl fun _ => sizeMb_follows hl fun _ => ?_
  refine release_follows hl (section_follows hl fun _ => dims_follows hl hrests fun _ _ => ?_)
  refine reading_follows hl hrests rfl fun _ => reading_follows hl hrests rfl fun _ => ?_
  refine reading_follows hl hrests rfl fun _ => reading_follows hl hrests rfl fun _ => ?_
  exact ask_follows hl rfl fun _ => hk _

/-! ## The handlers -/

/-- A response is the client's business, with the lock or without it. -/
theorem respond_follows {code : ℕ} {fields : List (String × String)} {body : List UInt8}
    {k : Program} (hk : k.Follows P l known) : (respond code fields body k).Follows P l known :=
  fun _ => .ite (fun _ _ => hk) fun _ => hk

theorem json_follows {code : ℕ} {body : List UInt8} {k : Program} (hk : k.Follows P l known) :
    (json code body k).Follows P l known :=
  respond_follows hk

theorem jsonDict_follows (hrests : P.rests l) (code : ℕ) (fields : List (String × Json)) :
    (jsonDict site code fields).Follows P l none :=
  json_follows (done_follows hrests)

theorem sendError_follows (hrests : P.rests l) (code : ℕ) (message : Option String) :
    (sendError site code message).Follows P l none :=
  respond_follows (done_follows hrests)

theorem static_follows (hl : Bystands P l) (hrests : P.rests l) (name : String) :
    (static site name).Follows P l none := by
  have hdone := done_follows hrests
  have herror : (sendError site 404).Follows P l none := sendError_follows hrests _ _
  refine ask_follows hl rfl fun _ => .ite (fun _ => ?_) fun _ => herror
  exact ask_follows hl rfl fun _ => .ite (fun _ => respond_follows hdone) fun _ => hdone

theorem waitNewer_follows (hl : Bystands P l) {since : ℤ} {deadline : ℚ} {k : Program}
    (hk : k.Follows P l none) (polls : ℕ) :
    (waitNewer since deadline k polls).Follows P l none := by
  induction polls with
  | zero =>
      refine section_follows hl fun _ => .ite (fun _ => ?_) fun _ => hk
      exact monotonic_follows hl fun _ => hk
  | succ polls ih =>
      refine section_follows hl fun _ => .ite (fun _ => ?_) fun _ => hk
      refine monotonic_follows hl fun _ => ?_
      exact .ite (fun _ => ask_follows hl rfl fun _ => ih) fun _ => hk

theorem frame_follows (hl : Bystands P l) (hrests : P.rests l) (target : String) (polls : ℕ) :
    (frame site target polls).Follows P l none := by
  have hanswer : (answerFrame site).Follows P l none := by
    refine section_follows hl fun st => ?_
    cases st.frameJpeg with
    | none => exact sendError_follows hrests _ _
    | some jpeg => exact respond_follows (done_follows hrests)
  refine monotonic_follows hl fun _ => update_follows hl (fun _ => ⟨rfl, rfl⟩) ?_
  refine .ite (fun _ => monotonic_follows hl fun _ => ?_) fun _ => hanswer
  exact waitNewer_follows hl hanswer polls

theorem doGet_follows (hl : Bystands P l) (hrests : P.rests l) (target : String) (polls : ℕ) :
    (doGet site target polls).Follows P l none := by
  have hdone := done_follows hrests
  refine .ite (fun _ => static_follows hl hrests _) fun _ => .ite (fun _ => ?_) fun _ => ?_
  · exact status_follows hl hrests fun _ => json_follows hdone
  · refine .ite (fun _ => ?_) fun _ => .ite (fun _ => frame_follows hl hrests _ _) fun _ => ?_
    · exact acquire_follows hl fun _ _ _ => json_follows (release_follows hl hdone)
    · exact .ite (fun _ => static_follows hl hrests _) fun _ => sendError_follows hrests _ _

theorem postCanSend_follows (hl : Bystands P l) (hrests : P.rests l) (body : Json) :
    (postCanSend site body).Follows P l none := by
  have hdone := done_follows hrests
  cases body with
  | dict kvs =>
      refine ask_follows hl rfl fun a => ?_
      split
      · exact hdone
      · exact jsonDict_follows hrests _ _
  | _ => exact hdone

/-- `do_POST`, given what is left to the protocol of the three that have a path each. -/
theorem doPost_follows (hl : Bystands P l) (hrests : P.rests l) {target : String}
    (hstart : pathOf target = "/api/record/start" → ∀ k, (∀ err, (k err).Follows P l none) →
      (startRecording site k).Follows P l none)
    (hstop : pathOf target = "/api/record/stop" → ∀ k, (∀ err, (k err).Follows P l none) →
      (stopRecording k).Follows P l none)
    (hsnapshot : pathOf target = "/api/snapshot" → ∀ k, (∀ p err, (k p err).Follows P l none) →
      (snapshot site k).Follows P l none)
    (length : ℕ) : (doPost site target length).Follows P l none := by
  have hdone := done_follows hrests
  have hdict : ∀ code fields, (jsonDict site code fields).Follows P l none :=
    jsonDict_follows hrests
  have hloaded : ∀ body, (postLoaded site (pathOf target) body).Follows P l none := by
    intro body
    cases body with
    | error e =>
        cases e with
        | valueError => exact hdict _ _
        | recursionError => exact hdone
    | ok body =>
        refine .ite (fun h => hstart h _ fun _ => hdict _ _) fun _ => ?_
        refine .ite (fun h => hstop h _ fun _ => hdict _ _) fun _ => ?_
        refine .ite (fun h => hsnapshot h _ fun _ _ => hdict _ _) fun _ => ?_
        exact .ite (fun _ => postCanSend_follows hl hrests _) fun _ =>
          sendError_follows hrests _ _
  refine .ite (fun _ => hloaded _) fun _ _ => .ite (fun _ => hloaded _) fun _ => hdone

/-! ## The reader and the callbacks -/

theorem canReader_follows (hl : Bystands P l) (hrests : P.rests l) (turns : ℕ) :
    ∀ on, (canReader site on turns).Follows P l none := by
  have hdone := done_follows hrests
  induction turns with
  | zero =>
      intro on
      refine ask_follows hl rfl fun _ => .ite (fun _ => ?_) fun _ => hdone
      exact ask_follows hl rfl fun _ => hdone
  | succ turns ih =>
      intro on
      refine ask_follows hl rfl fun _ => .ite (fun _ => ?_) fun _ => ?_
      · refine ask_follows hl rfl fun a => .ite (fun _ => ?_) fun _ => ?_
        · cases parseCanFrame a.bytes with
          | none => exact ih true
          | some entry =>
              refine monotonic_follows hl fun now => ?_
              exact write_follows hl (fun _ => ⟨rfl, rfl⟩) (ih true)
        · refine .ite (fun _ => ih true) fun _ => write_follows hl (fun _ => ⟨rfl, rfl⟩) ?_
          exact ask_follows hl rfl fun _ => ih false
      · refine ask_follows hl rfl fun a => .ite (fun _ => ?_) fun _ => ?_
        · exact write_follows hl (fun _ => ⟨rfl, rfl⟩) (ih true)
        · refine write_follows hl (fun _ => ⟨rfl, rfl⟩) ?_
          exact ask_follows hl rfl fun _ => ih false

theorem manageImageSub_follows (hl : Bystands P l) (hrests : P.rests l) :
    manageImageSub.Follows P l none := by
  have hdone := done_follows hrests
  have hset : ∀ sub, (Prog.update (fun st : State => { st with imageSub := sub }) .done :
      Program).Follows P l none := fun sub => update_follows hl (fun _ => ⟨rfl, rfl⟩) hdone
  rw [manageImageSub]
  refine monotonic_follows hl fun now => ?_
  intro st _
  refine .ite (fun _ => ?_) fun _ => .ite (fun _ => ?_) fun _ => hdone
  · exact ask_follows hl rfl fun _ => hset true
  · exact ask_follows hl rfl fun _ => hset false

/-- A job that looks on whatever the protocol is. -/
def Job.plain : Job → Bool
  | .doPost .. | .onCompressed .. | .destroyNode => false
  | _ => true

theorem plain_follows (hl : Bystands P l) (hrests : P.rests l) {j : Job} (hj : j.plain = true) :
    (job site j).Follows P l none := by
  have hdone := done_follows hrests
  cases j with
  | doGet target polls => exact doGet_follows hl hrests _ _
  | onRate data => exact write_follows hl (fun _ => ⟨rfl, rfl⟩) hdone
  | onInfo matrix model => exact write_follows hl (fun _ => ⟨rfl, rfl⟩) hdone
  | manageImageSub => exact manageImageSub_follows hl hrests
  | canReader turns => exact canReader_follows hl hrests turns false
  | doPost target length | onCompressed data format | destroyNode => cases hj

end JetsonPerception.Console.Lock
