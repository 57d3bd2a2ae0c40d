/-
# The console's threads and its one lock

Every thread of `console_node.py` that takes `state.lock`, as a program of
`JetsonPerception.Lib.Monitor`: the handlers of HTTP requests, the callbacks of the ROS executor,
the CAN reader, and `destroy_node`.  A function of the source is a program with a continuation,
its result; `with state.lock:` is an `acquire` and a `release` around its body.

| | calls |
| :-- | :-- |
| `ask` | the clock, files, processes, the CAN socket: they answer, with a value or an error |
| `client` | `rfile.read`, `end_headers` and `wfile.write`: they wait for the client |

`do_GET` builds each response before it writes it, but for `/api/can`: there the one `with` is
around the writing too.  Without that request no thread that waits for its client has the lock
(`Responsive`).
-/
import JetsonPerception.Console.Codec
import JetsonPerception.Console.Post
import JetsonPerception.Lib.Monitor
import JetsonPerception.Rates

namespace JetsonPerception.Console.Lock

open Monitor Post

/-! ## State and calls -/

/-- `State`, and the attributes of the node that are used beside it, without the lock. -/
structure State where
  frameJpeg : Option (List UInt8) := none
  frameSeq : ℕ := 0
  width : ℕ := 0
  height : ℕ := 0
  encoding : String := ""
  frameTimes : List ℚ := []
  publisherHz : Option ℚ := none
  calibrated : Bool := false
  calibName : String := ""
  canFrames : List (CanEntry × ℚ) := []
  canStatus : String := "not started"
  canCount : ℕ := 0
  recording : Option ℕ := none
  recordPath : String := ""
  recordStarted : ℚ := 0
  dimsChecked : ℚ := 0
  lastFrameRequest : ℚ := 0
  imageSub : Bool := false
  deriving DecidableEq

inductive Call where
  | monotonic | strftime | sleep
  -- `Event.is_set`, `Event.set`, `Event.wait`, `httpd.shutdown`, `Node.destroy_node`
  | isSet | setStop | waitStop | shutdown | destroyNode
  | createSubscription | destroySubscription
  | imdecode (jpeg : List UInt8)
  | cpuPercent | gpuPercent | powerMode | socTempC | statvfs | dirSize (path : String)
  | poll (proc : ℕ) | popen (cmd : List String)
  | terminate (proc : ℕ) | wait (proc : ℕ) | kill (proc : ℕ)
  | save (path : String) (bytes : List UInt8)
  | isFile (path : String) | readFile (path : String)
  | canOpen | canRecv | canClose
  -- the socket that `can_send` opens, from `socket` to `close`
  | canSend
  -- the client's
  | read (length : ℕ)
  | headers (status : ℕ) (fields : List (String × String))
  | body (bytes : List UInt8)
  deriving DecidableEq

/-- What a call may answer; each call has its own field or two. -/
structure Answer where
  /-- The call did not raise; for a question, yes. -/
  ok : Bool := true
  now : ℚ := 0
  text : String := ""
  bytes : List UInt8 := []
  number : Option ℚ := none
  size : Option (ℕ × ℕ) := none
  proc : ℕ := 0
  /-- What `power_mode` returns. -/
  mode : Option String := none
  /-- The call raised `socket.timeout`. -/
  timeout : Bool := false
  net : Net := {}
  deriving DecidableEq

instance : Inhabited Answer := ⟨{}⟩

abbrev Program := Prog State Answer Call

/-- What `status` returns. -/
structure Status where
  topic : String
  encoding : String
  connected : Bool
  publisherHz : Option ℚ
  calibrationLoaded : Bool
  calibrationModel : String
  canInterface : String
  canStatus : String
  canCount : ℕ
  recordingActive : Bool
  recordingPath : String
  recordingElapsed : ℚ
  recordingSizeMb : ℚ
  consoleRxHz : ℚ
  width : ℕ
  height : ℕ
  cpu : Option ℚ
  gpu : Option ℚ
  power : Option String
  temp : Option ℚ
  diskFreeGb : Option ℚ

/-- The parameters of the node, and what of Python its handlers use beside `Library`. -/
structure Site extends Config where
  lib : Library
  imageTopic : String := "/image_raw"
  canInterface : String := "can0"
  canHistory : ℕ := 200
  webRoot : String := "web"
  /-- `int(s)`; none on a `ValueError`. -/
  int : String → Option ℤ
  /-- `mimetypes.guess_type(full)[0]`. -/
  guessType : String → Option String
  /-- `json.dumps(obj).encode()`, of `node.status()` and of a list of frames. -/
  dumpsStatus : Status → List UInt8
  dumpsCan : List (CanEntry × ℚ) → List UInt8

variable (site : Site)

/-! ## Reading the state -/

def monotonic (k : ℚ → Program) : Program := .ask .monotonic fun a => k a.now

/-- `proc is not None and proc.poll() is None`. -/
def polls (proc : Option ℕ) (k : Bool → Program) : Program :=
  match proc with
  | none => k false
  | some p => .ask (.poll p) fun a => k a.ok

/-- `deque_hz`. -/
def dequeHz (dq : State → List ℚ) (k : ℚ → Program) : Program :=
  .acquire <| .read fun st => .release <| k (Rates.dequeHz (dq st))

def currentSeq (k : ℕ → Program) : Program :=
  .acquire <| .read fun st => .release <| k st.frameSeq

def getFrame (k : Option (List UInt8) → ℕ → Program) : Program :=
  .acquire <| .read fun st => .release <| k st.frameJpeg st.frameSeq

def readDims (k : ℕ → ℕ → Program) : Program :=
  .acquire <| .read fun st => .release <| k st.width st.height

/-- `_dims`: `_dims_checked` is read and written without the lock.  `imdecode` raises on an empty
frame, which ends the handler. -/
def dims (k : ℕ → ℕ → Program) : Program :=
  monotonic fun now => .read fun st =>
    if now - st.dimsChecked > 5 then
      .update (fun st => { st with dimsChecked := now }) <| getFrame fun jpeg _ =>
        match jpeg with
        | none => readDims k
        | some jpeg => .ask (.imdecode jpeg) fun a =>
            if a.ok then
              match a.size with
              | none => readDims k
              | some (height, width) =>
                  .acquire <| .update (fun st => { st with height, width }) <| .release <|
                  readDims k
            else .done
    else readDims k

/-- A reading of the host: `int` raises on a text that is no number, and not every reader catches
that. -/
def reading (call : Call) (k : Answer → Program) : Program :=
  .ask call fun a => if a.ok then k a else .done

/-- `time.monotonic() - st.record_started if rec else 0.0`. -/
def elapsed (st : State) (rec : Bool) (k : ℚ → Program) : Program :=
  if rec then monotonic fun now => k (now - st.recordStarted) else k 0

/-- `bool(st.frame_times) and (time.monotonic() - st.frame_times[-1]) < 2.0`. -/
def connected (st : State) (k : Bool → Program) : Program :=
  match st.frameTimes.getLast? with
  | some last => monotonic fun now => k (now - last < 2)
  | none => k false

/-- `dir_size_mb(st.record_path) if rec else 0`. -/
def sizeMb (st : State) (rec : Bool) (k : ℚ → Program) : Program :=
  if rec then .ask (.dirSize st.recordPath) fun a => k (roundTo 1 (a.number.getD 0 / 10 ^ 6))
  else k 0

/-- `status`: the response is put together under the lock and finished without it. -/
def status (k : Status → Program) : Program :=
  .acquire <| .read fun st => polls st.recording fun rec => elapsed st rec fun recElapsed =>
  connected st fun connected => sizeMb st rec fun sizeMb => .release <|
  dequeHz State.frameTimes fun hz => dims fun width height =>
  reading .cpuPercent fun cpu => reading .gpuPercent fun gpu => reading .powerMode fun power =>
  reading .socTempC fun temp => .ask .statvfs fun disk =>
  k { topic := site.imageTopic, encoding := st.encoding, connected
      publisherHz := st.publisherHz
      calibrationLoaded := st.calibrated, calibrationModel := st.calibName
      canInterface := site.canInterface, canStatus := st.canStatus, canCount := st.canCount
      recordingActive := rec, recordingPath := if rec then st.recordPath else ""
      recordingElapsed := roundTo 1 recElapsed, recordingSizeMb := sizeMb
      consoleRxHz := roundTo 2 hz, width, height
      cpu := cpu.number, gpu := gpu.number, power := power.mode, temp := temp.number
      diskFreeGb := Post.diskFreeGb disk.size }

/-! ## The controls -/

def startRecording (k : Option String → Program) : Program :=
  .acquire <| .read fun st => polls st.recording fun rec =>
  if rec then .release <| k (some "already recording")
  else .release <| .ask .statvfs fun a =>
    let free := Post.diskFreeGb a.size
    if free.any (· < site.minFreeGb) then k (some (diskLow site.toConfig (free.getD 0)))
    else .ask .strftime fun stamp =>
      .ask (.popen (recordCmd site.toConfig stamp.text)) fun a =>
        if a.ok then
          .acquire <| monotonic fun now =>
          .update (fun st => { st with
            recording := some a.proc
            recordPath := recordPath site.toConfig stamp.text
            recordStarted := now }) <|
          .release <| k none
        else k (some a.text)

def stopRecording (k : Option String → Program) : Program :=
  .acquire <| .read fun st => .update (fun st => { st with recording := none }) <| .release <|
  match st.recording with
  | none => k (some "not recording")
  | some proc => .ask (.poll proc) fun a =>
      if a.ok then
        .ask (.terminate proc) fun _ => .ask (.wait proc) fun a =>
          if a.ok then k none else .ask (.kill proc) fun _ => k none
      else k (some "not recording")

/-- `snapshot`; an `OSError` of the file ends the handler. -/
def snapshot (k : Option String → Option String → Program) : Program :=
  getFrame fun jpeg _ =>
    match jpeg with
    | none => k none (some "no frame available")
    | some jpeg => .ask .strftime fun stamp =>
        let path := snapshotPath site.toConfig stamp.text
        .ask (.save path jpeg) fun a => if a.ok then k (some path) none else .done

/-! ## The callbacks and the reader -/

/-- `_on_compressed`. -/
def onCompressed (data : List UInt8) (format : String) : Program :=
  .acquire <| monotonic fun now =>
  .update (fun st => { st with
    frameJpeg := some data
    frameSeq := st.frameSeq + 1
    encoding := format
    frameTimes := (st.frameTimes ++ [now]).drop (st.frameTimes.length + 1 - 90) }) <|
  .release .done

/-- `_on_rate`. -/
def onRate (data : ℚ) : Program :=
  .acquire <| .update (fun st => { st with publisherHz := some data }) <| .release .done

/-- `_on_info`. -/
def onInfo (matrix : List ℚ) (distortionModel : String) : Program :=
  let loaded := matrix.any (· ≠ 0)
  .acquire <|
  .update (fun st => { st with
    calibrated := loaded, calibName := if loaded then distortionModel else "" }) <|
  .release .done

/-- `_manage_image_sub`, on the executor's thread and without the lock. -/
def manageImageSub : Program :=
  monotonic fun now => .read fun st =>
    let want := now - st.lastFrameRequest < 5
    if want ∧ st.imageSub = false then
      .ask .createSubscription fun _ => .update (fun st => { st with imageSub := true }) .done
    else if ¬ want ∧ st.imageSub = true then
      .ask .destroySubscription fun _ => .update (fun st => { st with imageSub := false }) .done
    else .done

def setCanStatus (text : String) (k : Program) : Program :=
  .acquire <| .update (fun st => { st with canStatus := text }) <| .release k

/-- `can_reader`, for `turns` tests of `stop_event` before the one that finds it set: in the inner
loop when it is listening, else in the outer one.  A `sock.close()` that raises, and so ends the
thread, is left out. -/
def canReader (listening : Bool) : (turns : ℕ) → Program
  | 0 => .ask .isSet fun _ => if listening then .ask .canClose fun _ => .done else .done
  | turns + 1 => .ask .isSet fun _ =>
      if listening then
        .ask .canRecv fun a =>
          if a.ok then
            match parseCanFrame a.bytes with
            | none => canReader true turns
            | some entry => monotonic fun now =>
                .acquire <|
                .update (fun st => { st with
                  canFrames := ((entry, roundTo 3 now) :: st.canFrames).take site.canHistory
                  canCount := st.canCount + 1 }) <|
                .release <| canReader true turns
          else if a.timeout then canReader true turns
          else
            setCanStatus (site.canInterface ++ " went away (" ++ a.text ++ "); retrying") <|
            .ask .canClose fun _ => canReader false turns
      else
        .ask .canOpen fun a =>
          if a.ok then setCanStatus ("listening on " ++ site.canInterface) <| canReader true turns
          else
            setCanStatus ("waiting for " ++ site.canInterface ++ " (" ++ a.text ++ ")") <|
            .ask .waitStop fun _ => canReader false turns

/-- `destroy_node`. -/
def destroyNode : Program :=
  .ask .setStop fun _ => stopRecording fun _ => .ask .shutdown fun _ =>
  .ask .destroyNode fun _ => .done

/-! ## The handlers -/

/-- A response is written: its headers, then its body.  What follows, an `__exit__` if anything,
follows an exception too. -/
def respond (code : ℕ) (fields : List (String × String)) (body : List UInt8) (k : Program) :
    Program :=
  .client (.headers code fields) fun a => if a.ok then .client (.body body) fun _ => k else k

def contentFields (contentType : String) (body : List UInt8) : List (String × String) :=
  [("Content-Type", contentType), ("Content-Length", toString body.length)]

/-- `self._json(obj, code)`, of the bytes of `json.dumps(obj)`. -/
def json (code : ℕ) (body : List UInt8) (k : Program) : Program :=
  respond code (contentFields "application/json" body) body k

/-- `send_error`. -/
def sendError (code : ℕ) (message : Option String := none) : Program :=
  let body := site.lib.encode (.errorPage code message)
  respond code (("Connection", "close") :: contentFields "text/html;charset=utf-8" body) body .done

/-- `_static`. -/
def static (name : String) : Program :=
  let full := pathJoin site.webRoot name
  .ask (.isFile full) fun a =>
    if a.ok then
      .ask (.readFile full) fun file =>
        if file.ok then
          let ctype := (site.guessType full).getD "application/octet-stream"
          respond 200 (contentFields ctype file.bytes) file.bytes .done
        else .done
    else sendError site 404

/-- `os.path.basename`. -/
def basename (path : String) : String :=
  String.ofList ((path.toList.reverse.takeWhile (· ≠ '/')).reverse)

/-- The value of `since`: -1 unless the query has one that is an integer. -/
def sinceOf (target : String) : ℤ :=
  let query := (target.toList.dropWhile (· ≠ '?')).drop 1
  (query.splitOn '&').foldl (fun since kv =>
    if "since=".toList.isPrefixOf kv then (site.int (String.ofList (kv.drop 6))).getD since
    else since) (-1)

/-- The wait of `_frame`, for `polls` sleeps before its condition fails. -/
def waitNewer (since : ℤ) (deadline : ℚ) (k : Program) : (polls : ℕ) → Program
  | 0 => currentSeq fun seq => if seq = since then monotonic fun _ => k else k
  | polls + 1 => currentSeq fun seq =>
      if seq = since then
        monotonic fun now =>
          if now < deadline then .ask .sleep fun _ => waitNewer since deadline k polls else k
      else k

/-- The end of `_frame`: the newest frame, whatever ended the wait. -/
def answerFrame : Program :=
  getFrame fun jpeg seq =>
    match jpeg with
    | none => sendError site 503 (some "no frame available")
    | some jpeg =>
        respond 200 (contentFields "image/jpeg" jpeg ++
          [("Cache-Control", "no-store"), ("X-Frame-Seq", toString seq)]) jpeg .done

/-- `_frame`. -/
def frame (target : String) (polls : ℕ) : Program :=
  monotonic fun now => .update (fun st => { st with lastFrameRequest := now }) <|
  if sinceOf site target ≥ 0 then
    monotonic fun now => waitNewer (sinceOf site target) (now + 3 / 2) (answerFrame site) polls
  else answerFrame site

/-- `do_GET`. -/
def doGet (target : String) (polls : ℕ) : Program :=
  let path := pathOf target
  if path = "/" ∨ path = "/index.html" then static site "index.html"
  else if path = "/api/status" then status site fun st => json 200 (site.dumpsStatus st) .done
  else if path = "/api/can" then
    -- written inside the `with`
    .acquire <| .read fun st => json 200 (site.dumpsCan (st.canFrames.take 80)) <| .release .done
  else if path = "/frame.jpg" then frame site target polls
  else if path.startsWith "/static/" then static site (basename path)
  else sendError site 404

/-- `self._json` of an object. -/
def jsonDict (code : ℕ) (fields : List (String × Json)) : Program :=
  json code (site.lib.encode (.json (.dict fields))) .done

/-- The branch for `/api/can/send`.  Its one call to the surroundings is `can_send`'s socket; a
request that does not get as far as that does not look at the answer. -/
def postCanSend (body : Json) : Program :=
  match body with
  | .dict kvs => .ask .canSend fun a =>
      match (Console.postCanSend site.lib.toPython a.net kvs).reply with
      | .none => .done
      | .json status ok err => jsonDict site status [("ok", .bool ok), ("error", ofOption err)]
  | _ => .done

/-- `do_POST` from what `json.loads` made of the body. -/
def postLoaded (path : String) : Except LoadError Json → Program
  | .error .valueError => jsonDict site 400 [("error", .str "invalid JSON")]
  | .error .recursionError => .done
  | .ok body =>
      if path = "/api/record/start" then
        startRecording site fun err => jsonDict site 200 (okError err)
      else if path = "/api/record/stop" then
        stopRecording fun err => jsonDict site 200 (okError err)
      else if path = "/api/snapshot" then
        snapshot site fun p err => jsonDict site 200
          [("ok", .bool err.isNone), ("path", ofOption p), ("error", ofOption err)]
      else if path = "/api/can/send" then postCanSend site body
      else sendError site 404

/-- `do_POST`. -/
def doPost (target : String) (length : ℕ) : Program :=
  if length = 0 then postLoaded site (pathOf target) (site.lib.loads (rawOf []))
  else .client (.read length) fun a =>
    if a.ok then postLoaded site (pathOf target) (site.lib.loads (rawOf a.bytes)) else .done

/-- What the threads run: HTTP handlers, from where the request's line and headers have been read,
callbacks of the executor, the reader, and `destroy_node`. -/
inductive Job where
  | doGet (target : String) (polls : ℕ)
  | doPost (target : String) (length : ℕ)
  | onCompressed (data : List UInt8) (format : String)
  | onRate (data : ℚ)
  | onInfo (matrix : List ℚ) (distortionModel : String)
  | manageImageSub
  | canReader (turns : ℕ)
  | destroyNode

def job : Job → Program
  | .doGet target polls => doGet site target polls
  | .doPost target length => doPost site target length
  | .onCompressed data format => onCompressed data format
  | .onRate data => onRate data
  | .onInfo matrix distortionModel => onInfo matrix distortionModel
  | .manageImageSub => manageImageSub
  | .canReader turns => canReader site false turns
  | .destroyNode => destroyNode

/-- The console: any number of threads, one job after another, from the state of `__init__`. -/
def console : GuardedMachine (Threads State Answer Call) (Event Answer Job) := machine (job site)

instance (s : Threads State Answer Call) (e : Event Answer Job) :
    Decidable ((console site).guard s e) :=
  inferInstanceAs (Decidable ((machine (job site)).guard s e))

def start : Threads State Answer Call := ⟨{}, none, fun _ => .done⟩

/-! ## Discipline, function by function -/

variable {site} {held : Bool}

theorem monotonic_disciplined {k : ℚ → Program} (hk : ∀ now, (k now).Disciplined held) :
    (monotonic k).Disciplined held := fun a => hk a.now

theorem polls_disciplined {proc : Option ℕ} {k : Bool → Program}
    (hk : ∀ b, (k b).Disciplined held) : (polls proc k).Disciplined held := by
  cases proc with
  | none => exact hk false
  | some p => exact fun a => hk a.ok

theorem dequeHz_disciplined {dq : State → List ℚ} {k : ℚ → Program}
    (hk : ∀ hz, (k hz).Disciplined false) : (dequeHz dq k).Disciplined false :=
  ⟨rfl, fun _ => ⟨rfl, hk _⟩⟩

theorem currentSeq_disciplined {k : ℕ → Program} (hk : ∀ seq, (k seq).Disciplined false) :
    (currentSeq k).Disciplined false :=
  ⟨rfl, fun _ => ⟨rfl, hk _⟩⟩

theorem getFrame_disciplined {k : Option (List UInt8) → ℕ → Program}
    (hk : ∀ jpeg seq, (k jpeg seq).Disciplined false) : (getFrame k).Disciplined false :=
  ⟨rfl, fun _ => ⟨rfl, hk _ _⟩⟩

theorem dims_disciplined {k : ℕ → ℕ → Program}
    (hk : ∀ width height, (k width height).Disciplined false) : (dims k).Disciplined false := by
  have hread : (readDims k).Disciplined false := ⟨rfl, fun _ => ⟨rfl, hk _ _⟩⟩
  refine monotonic_disciplined fun now => ?_
  intro st
  refine Prog.Disciplined.ite (.update (getFrame_disciplined fun jpeg _ => ?_)) hread
  cases jpeg with
  | none => exact hread
  | some jpeg =>
      refine fun a => Prog.Disciplined.ite ?_ rfl
      cases a.size with
      | none => exact hread
      | some size => exact ⟨rfl, rfl, hread⟩

theorem reading_disciplined {call : Call} {k : Answer → Program}
    (hk : ∀ a, (k a).Disciplined false) : (reading call k).Disciplined false :=
  fun a => Prog.Disciplined.ite (hk a) rfl

theorem elapsed_disciplined {st : State} {rec : Bool} {k : ℚ → Program}
    (hk : ∀ t, (k t).Disciplined held) : (elapsed st rec k).Disciplined held :=
  Prog.Disciplined.ite (monotonic_disciplined fun _ => hk _) (hk 0)

theorem connected_disciplined {st : State} {k : Bool → Program}
    (hk : ∀ b, (k b).Disciplined held) : (connected st k).Disciplined held := by
  rw [connected]
  cases st.frameTimes.getLast? with
  | none => exact hk false
  | some last => exact monotonic_disciplined fun _ => hk _

theorem sizeMb_disciplined {st : State} {rec : Bool} {k : ℚ → Program}
    (hk : ∀ mb, (k mb).Disciplined held) : (sizeMb st rec k).Disciplined held :=
  Prog.Disciplined.ite (fun _ => hk _) (hk 0)

theorem status_disciplined {k : Status → Program} (hk : ∀ p, (k p).Disciplined false) :
    (status site k).Disciplined false := by
  refine ⟨rfl, fun st => polls_disciplined fun rec => elapsed_disciplined fun _ => ?_⟩
  refine connected_disciplined fun _ => sizeMb_disciplined fun _ => ⟨rfl, ?_⟩
  refine dequeHz_disciplined fun _ => dims_disciplined fun _ _ => reading_disciplined fun _ => ?_
  refine reading_disciplined fun _ => reading_disciplined fun _ => reading_disciplined fun _ => ?_
  exact fun _ => hk _

theorem startRecording_disciplined {k : Option String → Program}
    (hk : ∀ err, (k err).Disciplined false) : (startRecording site k).Disciplined false := by
  refine ⟨rfl, fun st => polls_disciplined fun rec => ?_⟩
  refine Prog.Disciplined.ite ⟨rfl, hk _⟩ ⟨rfl, fun disk => ?_⟩
  refine Prog.Disciplined.ite (hk _) fun stamp => fun a => ?_
  exact Prog.Disciplined.ite ⟨rfl, monotonic_disciplined fun _ => ⟨rfl, hk _⟩⟩ (hk _)

theorem stopRecording_disciplined {k : Option String → Program}
    (hk : ∀ err, (k err).Disciplined false) : (stopRecording k).Disciplined false := by
  refine ⟨rfl, fun st => ⟨rfl, ?_⟩⟩
  cases st.recording with
  | none => exact hk _
  | some proc =>
      have hstop : ∀ a : Answer,
          (if a.ok then k none else .ask (.kill proc) fun _ => k none).Disciplined false :=
        fun a => Prog.Disciplined.ite (hk _) fun _ => hk _
      exact fun a => Prog.Disciplined.ite (fun _ => hstop) (hk _)

theorem snapshot_disciplined {k : Option String → Option String → Program}
    (hk : ∀ p err, (k p err).Disciplined false) : (snapshot site k).Disciplined false := by
  refine getFrame_disciplined fun jpeg _ => ?_
  cases jpeg with
  | none => exact hk _ _
  | some jpeg => exact fun stamp a => Prog.Disciplined.ite (hk _ _) rfl

theorem onCompressed_disciplined (data : List UInt8) (format : String) :
    (onCompressed data format).Disciplined false :=
  ⟨rfl, monotonic_disciplined fun _ => ⟨rfl, rfl⟩⟩

theorem manageImageSub_disciplined : manageImageSub.Disciplined false := by
  refine monotonic_disciplined fun now => fun st => ?_
  exact Prog.Disciplined.ite (fun _ => rfl) (Prog.Disciplined.ite (fun _ => rfl) rfl)

theorem setCanStatus_disciplined {text : String} {k : Program} (hk : k.Disciplined false) :
    (setCanStatus text k).Disciplined false :=
  ⟨rfl, rfl, hk⟩

theorem canReader_disciplined (turns : ℕ) :
    ∀ listening, (canReader site listening turns).Disciplined false := by
  induction turns with
  | zero => exact fun listening _ => Prog.Disciplined.ite (fun _ => rfl) rfl
  | succ turns ih =>
      intro listening _
      refine Prog.Disciplined.ite (fun a => ?_) fun a => ?_
      · refine Prog.Disciplined.ite ?_ (Prog.Disciplined.ite (ih true) ?_)
        · cases parseCanFrame a.bytes with
          | none => exact ih true
          | some entry => exact monotonic_disciplined fun _ => ⟨rfl, rfl, ih true⟩
        · exact setCanStatus_disciplined fun _ => ih false
      · exact Prog.Disciplined.ite (setCanStatus_disciplined (ih true))
          (setCanStatus_disciplined fun _ => ih false)

theorem destroyNode_disciplined : destroyNode.Disciplined false :=
  fun _ => stopRecording_disciplined fun _ => fun _ _ => rfl

theorem respond_disciplined {code : ℕ} {fields : List (String × String)} {body : List UInt8}
    {k : Program} (hk : k.Disciplined false) : (respond code fields body k).Disciplined false :=
  ⟨rfl, fun _ => Prog.Disciplined.ite ⟨rfl, fun _ => hk⟩ hk⟩

theorem sendError_disciplined (code : ℕ) (message : Option String) :
    (sendError site code message).Disciplined false :=
  respond_disciplined rfl

theorem static_disciplined (name : String) : (static site name).Disciplined false :=
  fun _ => Prog.Disciplined.ite
    (fun _ => Prog.Disciplined.ite (respond_disciplined rfl) rfl) (sendError_disciplined ..)

theorem waitNewer_disciplined {since : ℤ} {deadline : ℚ} {k : Program}
    (hk : k.Disciplined false) (polls : ℕ) :
    (waitNewer since deadline k polls).Disciplined false := by
  induction polls with
  | zero =>
      exact currentSeq_disciplined fun _ =>
        Prog.Disciplined.ite (monotonic_disciplined fun _ => hk) hk
  | succ polls ih =>
      refine currentSeq_disciplined fun _ => Prog.Disciplined.ite ?_ hk
      exact monotonic_disciplined fun _ => Prog.Disciplined.ite (fun _ => ih) hk

theorem answerFrame_disciplined : (answerFrame site).Disciplined false := by
  refine getFrame_disciplined fun jpeg _ => ?_
  cases jpeg with
  | none => exact sendError_disciplined ..
  | some jpeg => exact respond_disciplined rfl

theorem frame_disciplined (target : String) (polls : ℕ) :
    (frame site target polls).Disciplined false := by
  refine monotonic_disciplined fun now => ?_
  refine Prog.Disciplined.ite (monotonic_disciplined fun now => ?_) answerFrame_disciplined
  exact waitNewer_disciplined answerFrame_disciplined polls

/-- `do_GET` keeps the discipline on every path but one. -/
theorem doGet_disciplined {target : String} (h : pathOf target ≠ "/api/can") (polls : ℕ) :
    (doGet site target polls).Disciplined false := by
  refine Prog.Disciplined.ite (static_disciplined _) ?_
  refine Prog.Disciplined.ite (status_disciplined fun _ => respond_disciplined rfl) ?_
  rw [if_neg h]
  refine Prog.Disciplined.ite (frame_disciplined target polls) ?_
  exact Prog.Disciplined.ite (static_disciplined _) (sendError_disciplined ..)

theorem postCanSend_disciplined (body : Json) : (postCanSend site body).Disciplined false := by
  cases body with
  | dict kvs =>
      intro a
      dsimp only
      cases (Console.postCanSend site.lib.toPython a.net kvs).reply with
      | none => rfl
      | json status ok err => exact respond_disciplined rfl
  | _ => rfl

theorem postLoaded_disciplined (path : String) (loaded : Except LoadError Json) :
    (postLoaded site path loaded).Disciplined false := by
  match loaded with
  | .error .valueError => exact respond_disciplined rfl
  | .error .recursionError => rfl
  | .ok body =>
      refine Prog.Disciplined.ite (startRecording_disciplined fun _ => respond_disciplined rfl) ?_
      refine Prog.Disciplined.ite (stopRecording_disciplined fun _ => respond_disciplined rfl) ?_
      refine Prog.Disciplined.ite (snapshot_disciplined fun _ _ => respond_disciplined rfl) ?_
      exact Prog.Disciplined.ite (postCanSend_disciplined body) (sendError_disciplined ..)

theorem doPost_disciplined (target : String) (length : ℕ) :
    (doPost site target length).Disciplined false := by
  refine Prog.Disciplined.ite (postLoaded_disciplined ..) ⟨rfl, fun a => ?_⟩
  exact Prog.Disciplined.ite (postLoaded_disciplined ..) rfl

/-! ## Who waits for a client with the lock -/

/-- No thread that waits for its client has the lock, and whatever the clients do, every thread
can go on to its end or to its own client. -/
structure Responsive (site : Site) (s : Threads State Answer Call) : Prop where
  unlocked : ∀ i, s.Waits i → s.holder ≠ some i
  proceeds : ∀ i, ∃ t, Alone (job site) s t ∧ (t.prog i = .done ∨ t.Waits i)

/-- No request for `/api/can` is begun. -/
def NoCanGet (_ : Threads State Answer Call) (e : Event Answer Job) : Prop :=
  ∀ i target polls, e = .start i (.doGet target polls) → pathOf target ≠ "/api/can"

variable {es : List (Event Answer Job)} {s : Threads State Answer Call}

/-- Every job but that one is disciplined. -/
theorem starts_of_noCanGet {e : Event Answer Job} (h : NoCanGet s e) : Starts (job site) s e := by
  rintro i j rfl
  cases j with
  | doGet target polls => exact doGet_disciplined (h i target polls rfl) polls
  | doPost target length => exact doPost_disciplined target length
  | onCompressed data format => exact onCompressed_disciplined data format
  | onRate data => exact ⟨rfl, rfl, rfl⟩
  | onInfo matrix distortionModel => exact ⟨rfl, rfl, rfl⟩
  | manageImageSub => exact manageImageSub_disciplined
  | canReader turns => exact canReader_disciplined turns false
  | destroyNode => exact destroyNode_disciplined

theorem kept_of_run (h : ((console site).restrict NoCanGet).Run start es s) : Kept s :=
  h.inv_restrict Kept (fun s e hs hg hC => hs.step s e hg (starts_of_noCanGet hC)) (Kept.init _)

/-- `do_GET` on the path that it answers under the lock. -/
theorem doGet_can {target : String} (h : pathOf target = "/api/can") (polls : ℕ) :
    doGet site target polls = .acquire (.read fun st =>
      json 200 (site.dumpsCan (st.canFrames.take 80)) (.release .done)) := by
  rw [doGet, h]
  rfl

theorem responsive_of_run (h : ((console site).restrict NoCanGet).Run start es s) :
    Responsive site s := by
  have hs := kept_of_run h
  exact ⟨fun i => hs.not_waiting, hs.proceeds (job site)⟩

def ascii (text : List Char) : List UInt8 := text.map fun c => UInt8.ofNat c.toNat

/-- Texts of statuses and of frames that can be told apart. -/
def plainSite : Site :=
  { lib := plainLibrary
    int := fun _ => none
    guessType := fun _ => none
    dumpsStatus := fun st => UInt8.ofNat st.canCount :: ascii st.canStatus.toList
    dumpsCan := fun frames => frames.flatMap fun x => ascii (x.1.id.toList ++ x.1.data.toList) }

end JetsonPerception.Console.Lock
