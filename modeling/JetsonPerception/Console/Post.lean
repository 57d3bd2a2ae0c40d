/-
# What a POST to the console is answered

`do_POST` with everything it calls, from the bytes of the body to what is written to the
client: `start_recording`, `stop_recording`, `snapshot`, and the branch for `/api/can/send` of
`JetsonPerception.Console.Can`.  The handler runs once, so a request is a function of the
outcomes of the calls it makes, a `World`.

| guard | catches | around |
| :-- | :-- | :-- |
| `except ValueError` | a body that is not JSON | `json.loads` |
| `except OSError` | a recorder that cannot be started | `subprocess.Popen` |
| `except ValueError` | an `id` or `data` that is not hex | `body.get`, `int`, `bytes.fromhex` |
| `except ValueError` | a payload that is too long | `build_can_frame` |
| `except OSError` | a bus that is not there | the CAN socket, `close` included |

Whatever else is raised leaves the handler, and the client gets no answer: `post_answered_iff`
says for which requests and outcomes that is.
-/
import JetsonPerception.Console.Can
import Mathlib.Data.Rat.Floor

namespace JetsonPerception.Console.Post

/-! ## What the handler is given -/

/-- `json.loads` raises `json.JSONDecodeError` or `UnicodeDecodeError`, both of them a
`ValueError`, or `RecursionError` on a body that is nested too deeply. -/
inductive LoadError where
  | valueError
  | recursionError
  deriving DecidableEq

/-- The body of a response: `json.dumps` of an object, or the page of `send_error`. -/
inductive Content where
  | json (obj : Json)
  | errorPage (code : ℕ) (message : Option String)

/-- Python's conversions, `json.loads`, and the bytes of a response's body. -/
structure Library extends Python where
  loads : List UInt8 → Except LoadError Json
  encode : Content → List UInt8

/-- The parameters of `OperatorConsole` that a POST reads. -/
structure Config where
  captureDir : String := "/captures"
  recordTopics : List String :=
    ["/image_raw/compressed", "/camera_info", "/trt_detector/detections"]
  minFreeGb : ℚ := 5

/-- The state and the calls of one request; a call that may raise has the text of its `OSError`. -/
structure World where
  /-- `self.rfile.read`, and the two writes of a response. -/
  clientRead : Option String := none
  clientHeaders : Option String := none
  clientBody : Option String := none
  /-- `state.recording and state.recording.poll() is None`. -/
  polls : Bool := false
  /-- `f_bavail` and `f_frsize`; none on an `OSError`. -/
  statvfs : Option (ℕ × ℕ) := none
  /-- `time.strftime("%Y%m%d_%H%M%S")`. -/
  stamp : String := "19700101_000000"
  popen : Option String := none
  /-- `proc.wait(timeout=10)` raises `TimeoutExpired`. -/
  waitExpires : Bool := false
  frameJpeg : Option (List UInt8) := none
  openFile : Option String := none
  writeFile : Option String := none
  closeFile : Option String := none
  net : Net := {}

/-- The exceptions that leave the handler. -/
inductive Escape where
  | attributeError
  | structError
  | recursionError
  | osError (text : String)
  deriving DecidableEq

/-- What a request does besides answering. -/
inductive Effect where
  | spawn (cmd : List String)
  | terminate
  | kill
  | save (path : String) (bytes : List UInt8)
  | transmit (frame : List UInt8)
  deriving DecidableEq

def Effect.isTransmit : Effect → Bool
  | .transmit _ => true
  | _ => false

/-! ## The controls -/

/-- The nearest integer, the even one of two. -/
def roundEven (x : ℚ) : ℤ :=
  let n := x.floor
  let r := x - n
  if r < 1 / 2 ∨ (r = 1 / 2 ∧ n % 2 = 0) then n else n + 1

/-- `round(x, digits)`. -/
def roundTo (digits : ℕ) (x : ℚ) : ℚ := roundEven (x * 10 ^ digits) / 10 ^ digits

/-- Python's `.1f`. -/
def format1f (x : ℚ) : String :=
  let n := roundEven (x * 10)
  (if n < 0 then "-" else "") ++ toString (n.natAbs / 10) ++ "." ++ toString (n.natAbs % 10)

def diskFreeGb (statvfs : Option (ℕ × ℕ)) : Option ℚ :=
  statvfs.map fun (bavail, frsize) => roundTo 1 (bavail * frsize / 10 ^ 9)

/-- `os.path.join`, of a relative name. -/
def pathJoin (dir name : String) : String :=
  if dir = "" ∨ dir.toList.getLast? = some '/' then dir ++ name else dir ++ "/" ++ name

/-- The refusal when the disk is too full. -/
def diskLow (node : Config) (free : ℚ) : String :=
  "only " ++ format1f free ++ " GB free (need " ++ format1f node.minFreeGb ++ ")"

def recordPath (node : Config) (stamp : String) : String :=
  pathJoin node.captureDir ("rosbag2_" ++ stamp)

def recordCmd (node : Config) (stamp : String) : List String :=
  ["ros2", "bag", "record", "-o", recordPath node stamp] ++ node.recordTopics

def snapshotPath (node : Config) (stamp : String) : String :=
  pathJoin node.captureDir ("snapshot_" ++ stamp ++ ".jpg")

def startRecording (node : Config) (w : World) : List Effect × Option String :=
  if w.polls then ([], some "already recording")
  else
    let free := diskFreeGb w.statvfs
    if free.any (· < node.minFreeGb) then ([], some (diskLow node (free.getD 0)))
    else
      match w.popen with
      | some err => ([], some err)
      | none => ([.spawn (recordCmd node w.stamp)], none)

def stopRecording (w : World) : List Effect × Option String :=
  if w.polls then
    (if w.waitExpires then [.terminate, .kill] else [.terminate], none)
  else ([], some "not recording")

/-- The path and the error, or the `OSError` that nothing catches. -/
def snapshot (node : Config) (w : World) :
    List Effect × Except Escape (Option String × Option String) :=
  match w.frameJpeg with
  | none => ([], .ok (none, some "no frame available"))
  | some jpeg =>
      let path := snapshotPath node w.stamp
      match w.openFile, w.writeFile, w.closeFile with
      | some err, _, _ => ([], .error (.osError err))
      | none, some err, _ => ([], .error (.osError err))
      | none, none, some err => ([], .error (.osError err))
      | none, none, none => ([.save path jpeg], .ok (some path, none))

/-! ## The answer -/

structure Response where
  status : ℕ
  contentType : String
  contentLength : ℕ
  body : Content

/-- What is written to the client: the headers, flushed by `end_headers`, and the body. -/
inductive Write where
  | headers (status : ℕ) (contentType : String) (contentLength : ℕ)
  | body (content : Content)

def Response.writes (r : Response) : List Write :=
  [.headers r.status r.contentType r.contentLength, .body r.body]

/-- What a request comes to. -/
structure Served where
  writes : List Write := []
  escaped : Option Escape := none
  effects : List Effect := []

/-- `self._json(obj, code)`. -/
def json (lib : Library) (code : ℕ) (fields : List (String × Json)) : Response :=
  let body := .json (.dict fields)
  { status := code, contentType := "application/json",
    contentLength := (lib.encode body).length, body }

/-- `self.send_error(code)`. -/
def sendError (lib : Library) (code : ℕ) : Response :=
  let body := .errorPage code none
  { status := code, contentType := "text/html;charset=utf-8",
    contentLength := (lib.encode body).length, body }

/-- The response is written to the client. -/
def World.send (w : World) (effects : List Effect) (r : Response) : Served :=
  match w.clientHeaders, w.clientBody with
  | some err, _ => { escaped := some (.osError err), effects }
  | none, some err =>
      { writes := r.writes.take 1, escaped := some (.osError err), effects }
  | none, none => { writes := r.writes, effects }

def ofOption : Option String → Json
  | none => .null
  | some s => .str s

/-- `{"ok": err is None, "error": err}`. -/
def okError (err : Option String) : List (String × Json) :=
  [("ok", .bool err.isNone), ("error", ofOption err)]

/-- `self.path.split("?", 1)[0]`. -/
def pathOf (target : String) : String := String.ofList (target.toList.takeWhile (· ≠ '?'))

/-- `b"{}"` stands for a body that is not there. -/
def rawOf (body : List UInt8) : List UInt8 := if body = [] then [0x7B, 0x7D] else body

/-- The branch for `/api/snapshot`. -/
def serveSnapshot (lib : Library) (node : Config) (w : World) : Served :=
  match snapshot node w with
  | (effects, .error e) => { escaped := some e, effects }
  | (effects, .ok (p, err)) =>
      w.send effects (json lib 200
        [("ok", .bool err.isNone), ("path", ofOption p), ("error", ofOption err)])

/-- The branch for `/api/can/send`. -/
def serveCanSend (lib : Library) (w : World) : Json → Served
  | .dict kvs =>
      let o := postCanSend lib.toPython w.net kvs
      let effects := o.onBus.toList.map Effect.transmit
      match o.reply with
      | .none => { escaped := some .structError, effects }
      | .json status ok err =>
          w.send effects (json lib status [("ok", .bool ok), ("error", ofOption err)])
  -- a list, a string, a number, a boolean or null has no `get`
  | _ => { escaped := some .attributeError }

/-- `do_POST` from the body that was parsed. -/
def dispatch (lib : Library) (node : Config) (w : World) (path : String) (body : Json) : Served :=
  if path = "/api/record/start" then
    let (effects, err) := startRecording node w
    w.send effects (json lib 200 (okError err))
  else if path = "/api/record/stop" then
    let (effects, err) := stopRecording w
    w.send effects (json lib 200 (okError err))
  else if path = "/api/snapshot" then serveSnapshot lib node w
  else if path = "/api/can/send" then serveCanSend lib w body
  else w.send [] (sendError lib 404)

/-- `Handler.do_POST`; `Content-Length` is the length of the body. -/
def doPost (lib : Library) (node : Config) (w : World) (target : String) (body : List UInt8) :
    Served :=
  match (if body = [] then none else w.clientRead) with
  | some err => { escaped := some (.osError err) }
  | none =>
      match lib.loads (rawOf body) with
      | .error .valueError => w.send [] (json lib 400 [("error", .str "invalid JSON")])
      | .error .recursionError => { escaped := some .recursionError }
      | .ok v => dispatch lib node w (pathOf target) v

/-! ## Every POST an answer -/

/-- A frame went out. -/
def Served.transmitted (o : Served) : Bool := o.effects.any Effect.isTransmit

/-- The length that is announced is the length of what follows. -/
def Response.Complete (lib : Library) (r : Response) : Prop :=
  r.contentLength = (lib.encode r.body).length

/-- The request got one complete response and nothing left the handler; a JSON body for
`/api/can/send` got a JSON object whose `ok` is whether a frame went out. -/
structure Answered (lib : Library) (target : String) (body : List UInt8) (o : Served) : Prop where
  complete : ∃ r : Response, r.Complete lib ∧ o.writes = r.writes
  caught : o.escaped = none
  sent : pathOf target = "/api/can/send" → ∀ v, lib.loads (rawOf body) = .ok v →
    ∃ r fields, o.writes = Response.writes r ∧ r.body = .json (.dict fields) ∧
      fields.lookup "ok" = some (.bool o.transmitted)

/-- The client's connection carries the request and its answer. -/
structure Connected (w : World) (body : List UInt8) : Prop where
  read : body ≠ [] → w.clientRead = none
  headers : w.clientHeaders = none
  body : w.clientBody = none

/-- The file of a snapshot can be written. -/
structure Writable (w : World) : Prop where
  openFile : w.openFile = none
  writeFile : w.writeFile = none
  closeFile : w.closeFile = none

/-- The identifier is a word, and closing the socket does not fail once the frame is out. -/
structure Sendable (net : Net) (n : ℤ) : Prop where
  nonneg : 0 ≤ n
  lt : n < 2 ^ 32
  close : net.socket = none → net.bind = none → net.send = none → net.close = none

/-- What a body for `/api/can/send` has to be: a JSON object, whose identifier, if it gets as far
as that, can be sent. -/
def CanBody (lib : Library) (net : Net) (v : Json) : Prop :=
  ∃ kvs, v = .dict kvs ∧ ∀ n p, lib.intBase16 (idText lib.toPython kvs) = .ok n →
    lib.fromHex (dataText lib.toPython kvs) = .ok p → p.length ≤ 8 → Sendable net n

/-- The requests that are answered. -/
structure Answerable (lib : Library) (w : World) (target : String) (body : List UInt8) : Prop where
  connected : Connected w body
  shallow : lib.loads (rawOf body) ≠ .error .recursionError
  snapshot : pathOf target = "/api/snapshot" → ∀ v, lib.loads (rawOf body) = .ok v →
    w.frameJpeg ≠ none → Writable w
  canSend : pathOf target = "/api/can/send" → ∀ v, lib.loads (rawOf body) = .ok v →
    CanBody lib w.net v

variable {lib : Library} {node : Config} {w : World} {target : String} {body : List UInt8}

/-! ## Writing the response -/

theorem Response.writes_injective {r r' : Response} (h : r.writes = r'.writes) : r = r' := by
  cases r
  cases r'
  simp only [Response.writes, List.cons.injEq, Write.headers.injEq, Write.body.injEq] at h
  obtain ⟨⟨rfl, rfl, rfl⟩, rfl, -⟩ := h
  rfl

theorem send_escaped {effects : List Effect} {r : Response} :
    (w.send effects r).escaped = none ↔ w.clientHeaders = none ∧ w.clientBody = none := by
  cases hh : w.clientHeaders <;> cases hb : w.clientBody <;> simp [World.send, hh, hb]

theorem send_of_connected {effects : List Effect} {r : Response} (h : w.clientHeaders = none)
    (h' : w.clientBody = none) : w.send effects r = { writes := r.writes, effects } := by
  rw [World.send, h, h']

theorem json_complete (code : ℕ) (fields : List (String × Json)) :
    (json lib code fields).Complete lib := rfl

theorem sendError_complete (code : ℕ) : (sendError lib code).Complete lib := rfl

/-! ## The frame -/

/-- `struct.pack` takes the word of an identifier exactly when it takes the identifier. -/
theorem lor_flag_fits (n : ℤ) (e : Bool) :
    (0 ≤ n.lor (if e then canEffFlag else 0) ∧ n.lor (if e then canEffFlag else 0) < 2 ^ 32) ↔
      0 ≤ n ∧ n < 2 ^ 32 := by
  cases n with
  | ofNat m =>
      have hlor : (Int.ofNat m).lor (if e then canEffFlag else 0) = (wordOf m e : ℤ) := by
        cases e <;> rfl
      have hcast : Int.ofNat m = (m : ℤ) := rfl
      rw [hlor, hcast]
      have hflag : (if e then canEffFlag else 0) < 2 ^ 32 := by cases e <;> decide
      have hm : m ≤ wordOf m e := Nat.left_le_or
      have hlt : m < 2 ^ 32 → wordOf m e < 2 ^ 32 := fun h => Nat.or_lt_two_pow h hflag
      constructor
      · rintro ⟨-, h⟩
        have hword : wordOf m e < 2 ^ 32 := by exact_mod_cast h
        exact ⟨Int.natCast_nonneg m, by exact_mod_cast lt_of_le_of_lt hm hword⟩
      · rintro ⟨-, h⟩
        have hword : m < 2 ^ 32 := by exact_mod_cast h
        exact ⟨Int.natCast_nonneg _, by exact_mod_cast hlt hword⟩
  | negSucc m =>
      have hneg : (Int.negSucc m).lor (if e then canEffFlag else 0) < 0 := by
        cases e <;> exact Int.negSucc_lt_zero _
      constructor
      · rintro ⟨h, -⟩
        exact absurd hneg (not_lt.mpr h)
      · rintro ⟨h, -⟩
        exact absurd (Int.negSucc_lt_zero m) (not_lt.mpr h)

/-- The reply says whether the frame is on the bus. -/
def Tells (o : Outcome) : Prop :=
  ∃ status err, o.reply = .json status o.onBus.isSome err

theorem tells_canSend (net : Net) (n : ℤ) (p : List UInt8) (e : Bool) :
    Tells (canSend net n p e) ↔ (p.length ≤ 8 → Sendable net n) := by
  rcases Nat.lt_or_ge 8 p.length with hlong | hshort
  · rw [canSend_long net n hlong]
    exact ⟨fun _ h => absurd h (not_le.mpr hlong), fun _ => ⟨200, _, rfl⟩⟩
  have hbuild : buildCanFrame n p e =
      pack (n.lor (if e then canEffFlag else 0)) p.length (ljust8 p) := by
    rw [buildCanFrame, if_neg (not_lt.mpr hshort)]
  by_cases hn : 0 ≤ n ∧ n < 2 ^ 32
  · obtain ⟨h0, hlt⟩ := (lor_flag_fits n e).mpr hn
    rw [canSend, hbuild, pack, if_pos ⟨h0, hlt, by omega⟩]
    obtain ⟨socket, bind, send, close⟩ := net
    constructor
    · rintro ⟨status, err, hreply⟩ -
      refine ⟨hn.1, hn.2, ?_⟩
      rintro rfl rfl rfl
      cases close with
      | none => rfl
      | some err => cases hreply
    · intro h
      obtain ⟨-, -, hclose⟩ := h hshort
      cases socket with
      | some err => exact ⟨200, _, rfl⟩
      | none =>
          cases bind with
          | some err => exact ⟨200, _, rfl⟩
          | none =>
              cases send with
              | some err => exact ⟨200, _, rfl⟩
              | none =>
                  obtain rfl : close = none := hclose rfl rfl rfl
                  exact ⟨200, _, rfl⟩
  · have hnot : ¬ (0 ≤ n.lor (if e then canEffFlag else 0) ∧
        n.lor (if e then canEffFlag else 0) < 2 ^ 32 ∧ p.length < 256) :=
      fun h => hn ((lor_flag_fits n e).mp ⟨h.1, h.2.1⟩)
    rw [canSend, hbuild, pack, if_neg hnot]
    constructor
    · rintro ⟨status, err, hreply⟩
      cases hreply
    · intro h
      exact absurd ⟨(h hshort).nonneg, (h hshort).lt⟩ hn

theorem tells_postCanSend (py : Python) (net : Net) (kvs : List (String × Json)) :
    Tells (postCanSend py net kvs) ↔ ∀ n p, py.intBase16 (idText py kvs) = .ok n →
      py.fromHex (dataText py kvs) = .ok p → p.length ≤ 8 → Sendable net n := by
  rw [postCanSend]
  cases hid : py.intBase16 (idText py kvs) with
  | error exc => exact ⟨fun _ n p h => (by cases h), fun _ => ⟨400, _, rfl⟩⟩
  | ok n =>
      cases hdata : py.fromHex (dataText py kvs) with
      | error exc => exact ⟨fun _ n p _ h => (by cases h), fun _ => ⟨400, _, rfl⟩⟩
      | ok p =>
          show Tells (canSend net n p (extFlag kvs)) ↔ _
          rw [tells_canSend]
          constructor
          · rintro h n' p' hn hp
            cases hn
            cases hp
            exact h
          · exact fun h => h n p rfl rfl

/-! ## One branch at a time -/

/-- A branch that writes its response is as good as the connection. -/
theorem answered_send {effects : List Effect} {r : Response} (hr : r.Complete lib)
    (hsent : pathOf target = "/api/can/send" → ∀ v, lib.loads (rawOf body) = .ok v →
      ∃ fields, r.body = .json (.dict fields) ∧
        fields.lookup "ok" = some (.bool (effects.any Effect.isTransmit))) :
    Answered lib target body (w.send effects r) ↔ w.clientHeaders = none ∧ w.clientBody = none := by
  constructor
  · exact fun h => send_escaped.mp h.caught
  · rintro ⟨hheaders, hbody⟩
    rw [send_of_connected hheaders hbody]
    refine ⟨⟨r, hr, rfl⟩, rfl, ?_⟩
    intro hpath v hv
    obtain ⟨fields, hfields, hok⟩ := hsent hpath v hv
    exact ⟨r, fields, rfl, hfields, hok⟩

/-- One that raises answers nothing. -/
theorem not_answered {o : Served} {e : Escape} (h : o.escaped = some e) :
    ¬ Answered lib target body o := by
  intro ha
  rw [ha.caught] at h
  cases h

theorem snapshot_raises_iff (node : Config) (w : World) :
    (∃ effects e, snapshot node w = (effects, .error e)) ↔
      ¬ (w.frameJpeg ≠ none → Writable w) := by
  cases hj : w.frameJpeg with
  | none => simp [snapshot, hj]
  | some jpeg =>
      have hw : Writable w ↔ w.openFile = none ∧ w.writeFile = none ∧ w.closeFile = none :=
        ⟨fun h => ⟨h.1, h.2, h.3⟩, fun h => ⟨h.1, h.2.1, h.2.2⟩⟩
      rw [hw]
      cases ho : w.openFile <;> cases hwr : w.writeFile <;> cases hc : w.closeFile <;>
        simp [snapshot, hj, ho, hwr, hc]

theorem any_transmit (frame : Option (List UInt8)) :
    (frame.toList.map Effect.transmit).any Effect.isTransmit = frame.isSome := by
  cases frame <;> rfl

/-- A JSON answer with an `ok` is as good as the connection and its `ok`. -/
theorem answered_ok {effects : List Effect} {status : ℕ} {ok : Bool} {err : Option String}
    {v : Json} (hpath : pathOf target = "/api/can/send") (hv : lib.loads (rawOf body) = .ok v) :
    Answered lib target body
        (w.send effects (json lib status [("ok", .bool ok), ("error", ofOption err)])) ↔
      (w.clientHeaders = none ∧ w.clientBody = none) ∧ effects.any Effect.isTransmit = ok := by
  constructor
  · intro h
    have hconn := send_escaped.mp h.caught
    obtain ⟨r, fields, hwrites, hbody, hok⟩ := h.sent hpath v hv
    rw [send_of_connected hconn.1 hconn.2] at hwrites hok
    obtain rfl := Response.writes_injective hwrites
    cases hbody
    have hsame : Json.bool ok = .bool (effects.any Effect.isTransmit) := Option.some.inj hok
    exact ⟨hconn, (Json.bool.inj hsame).symm⟩
  · rintro ⟨hconn, rfl⟩
    exact (answered_send (json_complete ..) fun _ _ _ => ⟨_, rfl, rfl⟩).mpr hconn

theorem answered_canSend {v : Json} (hpath : pathOf target = "/api/can/send")
    (hv : lib.loads (rawOf body) = .ok v) :
    Answered lib target body (serveCanSend lib w v) ↔
      (w.clientHeaders = none ∧ w.clientBody = none) ∧ CanBody lib w.net v := by
  cases v with
  | dict kvs =>
      have hbody : CanBody lib w.net (.dict kvs) ↔ Tells (postCanSend lib.toPython w.net kvs) := by
        rw [tells_postCanSend]
        constructor
        · rintro ⟨kvs', heq, h⟩
          cases heq
          exact h
        · exact fun h => ⟨kvs, rfl, h⟩
      rw [hbody, serveCanSend]
      cases hreply : (postCanSend lib.toPython w.net kvs).reply with
      | none =>
          constructor
          · exact fun h => absurd h (not_answered rfl)
          · rintro ⟨-, status, err, h⟩
            rw [hreply] at h
            cases h
      | json status ok err =>
          have htells : Tells (postCanSend lib.toPython w.net kvs) ↔
              (postCanSend lib.toPython w.net kvs).onBus.isSome = ok := by
            constructor
            · rintro ⟨status', err', h⟩
              rw [hreply] at h
              cases h
              rfl
            · rintro rfl
              exact ⟨status, err, hreply⟩
          rw [htells, answered_ok hpath hv, any_transmit]
  | _ =>
      constructor
      · exact fun h => absurd h (not_answered rfl)
      · rintro ⟨-, kvs, heq, -⟩
        cases heq

theorem answered_snapshot (hpath : pathOf target ≠ "/api/can/send") :
    Answered lib target body (serveSnapshot lib node w) ↔
      (w.clientHeaders = none ∧ w.clientBody = none) ∧ (w.frameJpeg ≠ none → Writable w) := by
  have hraises := snapshot_raises_iff node w
  rw [serveSnapshot]
  generalize hs : snapshot node w = out at hraises ⊢
  obtain ⟨effects, result⟩ := out
  cases result with
  | error e =>
      have hnot := hraises.mp ⟨effects, e, rfl⟩
      exact ⟨fun h => absurd h (not_answered rfl), fun h => absurd h.2 hnot⟩
  | ok answer =>
      have hfine : w.frameJpeg ≠ none → Writable w := by
        by_contra hnot
        obtain ⟨_, _, heq⟩ := hraises.mpr hnot
        cases heq
      have hsend : Answered lib target body (w.send effects (json lib 200
          [("ok", .bool answer.2.isNone), ("path", ofOption answer.1),
            ("error", ofOption answer.2)])) ↔ w.clientHeaders = none ∧ w.clientBody = none :=
        answered_send (json_complete ..) fun h => absurd h hpath
      exact hsend.trans ⟨fun h => ⟨h, hfine⟩, fun h => h.1⟩

/-- Once the body is parsed. -/
theorem answered_dispatch {v : Json} (hv : lib.loads (rawOf body) = .ok v) :
    Answered lib target body (dispatch lib node w (pathOf target) v) ↔
      (w.clientHeaders = none ∧ w.clientBody = none) ∧
      (pathOf target = "/api/snapshot" → w.frameJpeg ≠ none → Writable w) ∧
      (pathOf target = "/api/can/send" → CanBody lib w.net v) := by
  have hother : ∀ {effects r}, Response.Complete lib r → pathOf target ≠ "/api/snapshot" →
      pathOf target ≠ "/api/can/send" → (Answered lib target body (w.send effects r) ↔
        (w.clientHeaders = none ∧ w.clientBody = none) ∧
        (pathOf target = "/api/snapshot" → w.frameJpeg ≠ none → Writable w) ∧
        (pathOf target = "/api/can/send" → CanBody lib w.net v)) := by
    intro effects r hr hsnap hcan
    rw [answered_send hr fun h => absurd h hcan]
    exact ⟨fun h => ⟨h, fun hp => absurd hp hsnap, fun hp => absurd hp hcan⟩, fun h => h.1⟩
  rw [dispatch]
  split
  case isTrue hpath =>
    exact hother (json_complete ..) (by rw [hpath]; decide) (by rw [hpath]; decide)
  case isFalse =>
    split
    case isTrue hpath =>
        exact hother (json_complete ..) (by rw [hpath]; decide) (by rw [hpath]; decide)
    case isFalse =>
      split
      case isTrue hpath =>
          have hcan : pathOf target ≠ "/api/can/send" := by rw [hpath]; decide
          rw [answered_snapshot hcan]
          exact ⟨fun h => ⟨h.1, fun _ => h.2, fun hp => absurd hp hcan⟩,
            fun h => ⟨h.1, h.2.1 hpath⟩⟩
      case isFalse hsnap =>
        split
        case isTrue hpath =>
            rw [answered_canSend hpath hv]
            exact ⟨fun h => ⟨h.1, fun hp => absurd hp hsnap, fun _ => h.2⟩,
              fun h => ⟨h.1, h.2.2 hpath⟩⟩
        case isFalse hcan => exact hother (sendError_complete _) hsnap hcan

/-- **Every POST gets an answer** exactly when its connection holds, its body does not exhaust the
parser's stack, the file of a snapshot can be written, and a body for `/api/can/send` is a JSON
object whose identifier can be sent. -/
theorem post_answered_iff (lib : Library) (node : Config) (w : World) (target : String)
    (body : List UInt8) :
    Answered lib target body (doPost lib node w target body) ↔ Answerable lib w target body := by
  have hread : (if body = [] then none else w.clientRead) = none ↔
      (body ≠ [] → w.clientRead = none) := by
    split <;> simp [*]
  rw [doPost]
  cases hr : (if body = [] then none else w.clientRead) with
  | some err =>
      constructor
      · exact fun h => absurd h (not_answered rfl)
      · intro h
        rw [hread.mpr h.connected.read] at hr
        cases hr
  | none =>
      have hread := hread.mp hr
      cases hv : lib.loads (rawOf body) with
      | error e =>
          cases e with
          | valueError =>
              rw [answered_send (json_complete ..) fun _ v h => by rw [hv] at h; cases h]
              constructor
              · rintro ⟨hheaders, hbody⟩
                refine ⟨⟨hread, hheaders, hbody⟩, ?_, ?_, ?_⟩ <;> simp [hv]
              · exact fun h => ⟨h.connected.headers, h.connected.body⟩
          | recursionError =>
              constructor
              · exact fun h => absurd h (not_answered rfl)
              · exact fun h => absurd hv h.shallow
      | ok v =>
          rw [answered_dispatch hv]
          constructor
          · rintro ⟨⟨hheaders, hbody⟩, hsnap, hcan⟩
            refine ⟨⟨hread, hheaders, hbody⟩, by simp [hv], ?_, ?_⟩
            · intro hp _ _
              exact hsnap hp
            · intro hp v' hv'
              rw [hv] at hv'
              cases hv'
              exact hcan hp
          · rintro ⟨⟨-, hheaders, hbody⟩, -, hsnap, hcan⟩
            exact ⟨⟨hheaders, hbody⟩, fun hp => hsnap hp v hv, fun hp => hcan hp v hv⟩

/-- `[]` and `{}`, by their bytes. -/
def plainLibrary : Library :=
  { plainPython with
    loads := fun raw =>
      if raw = [0x5B, 0x5D] then .ok (.list [])
      else if raw = [0x7B, 0x7D] then .ok (.dict [])
      else .error .valueError
    encode := fun _ => [] }

/-- A JSON list for `/api/can/send`: it has no `get`, and the handler ends without a word. -/
theorem post_unanswered : ¬ ∀ lib node w target body,
    Answered lib target body (doPost lib node w target body) := by
  intro hall
  have hcaught := (hall plainLibrary {} {} "/api/can/send" [0x5B, 0x5D]).caught
  have hraised : (doPost plainLibrary {} {} "/api/can/send" [0x5B, 0x5D]).escaped =
      some .attributeError := by decide +kernel
  rw [hraised] at hcaught
  cases hcaught

end JetsonPerception.Console.Post
