/-
# Sending a CAN frame from the console

`POST /api/can/send`, from the JSON body to the bytes handed to the socket: the handler's
branch of `do_POST`, `can_send`, and `build_can_frame` with its `struct.pack`.

The identifier, the format and the two flags share the first word of the frame.  Python's
integers have no width: the word is formed by an `or` of unbounded integers and is refused by
`struct.pack` when it is not a 32-bit number, with an exception that nothing catches.

Python's conversions of the request's values are a parameter, `Python`; so are the outcomes of
the socket calls, `Net`.
-/
import JetsonPerception.Lib.LittleEndian
import Mathlib.Data.Int.Bitwise
import Mathlib.Data.Nat.Bitwise

namespace JetsonPerception.Console

/-! ## The frame -/

def canEffFlag : ℕ := 0x80000000
def canRtrFlag : ℕ := 0x40000000
def canErrFlag : ℕ := 0x20000000
def canSffMask : ℕ := 0x000007FF
def canEffMask : ℕ := 0x1FFFFFFF

/-- The exceptions of `build_can_frame`; `struct.error` is not a `ValueError`. -/
inductive PyError where
  | valueError (text : String)
  | structError
  deriving DecidableEq

/-- `bytes.ljust(8, b"\\0")`. -/
def ljust8 (payload : List UInt8) : List UInt8 := payload ++ List.replicate (8 - payload.length) 0

/-- `struct.pack("<IB3x8s", ident, length, data)`. -/
def pack (ident : ℤ) (length : ℕ) (data : List UInt8) : Except PyError (List UInt8) :=
  if 0 ≤ ident ∧ ident < 2 ^ 32 ∧ length < 256 then
    .ok (LittleEndian.encode 4 ident.toNat ++ [UInt8.ofNat length] ++ List.replicate 3 0 ++
      ljust8 (data.take 8))
  else .error .structError

/-- `struct.unpack("<IB3x8s", raw)`: the word, the length and the eight data bytes. -/
def unpack (raw : List UInt8) : ℕ × ℕ × List UInt8 :=
  (LittleEndian.decode (raw.take 4), LittleEndian.decode ((raw.drop 4).take 1), raw.drop 8)

def buildCanFrame (canId : ℤ) (payload : List UInt8) (extended : Bool) :
    Except PyError (List UInt8) :=
  if payload.length > 8 then .error (.valueError "payload longer than 8 bytes")
  else
    let ident := canId.lor (if extended then canEffFlag else 0)
    pack ident payload.length (ljust8 payload)

/-! ## The request -/

/-- A JSON value as `json.loads` gives it; a float is kept as its text. -/
inductive Json where
  | null
  | bool (b : Bool)
  | int (n : ℤ)
  | float (text : String)
  | str (s : String)
  | list (vs : List Json)
  | dict (kvs : List (String × Json))

/-- Python's truth of a value. -/
def Json.truthy : Json → Bool
  | .null => false
  | .bool b => b
  | .int n => n != 0
  | .float text => text != "0.0" && text != "-0.0"
  | .str s => s != ""
  | .list vs => !vs.isEmpty
  | .dict kvs => !kvs.isEmpty

/-- `dict.get`. -/
def get (body : List (String × Json)) (key : String) (default : Json) : Json :=
  (body.lookup key).getD default

/-- Python's conversions: `str(v)`, `int(s, 16)` and `bytes.fromhex(s)`, the latter two with
the text of their `ValueError`. -/
structure Python where
  str : Json → String
  intBase16 : String → Except String ℤ
  fromHex : String → Except String (List UInt8)

/-- Which socket calls raise an `OSError`, with its text. -/
structure Net where
  socket : Option String := none
  bind : Option String := none
  send : Option String := none
  close : Option String := none
  deriving DecidableEq

/-- The answer to the request: a JSON object, or none because an exception escapes. -/
inductive Reply where
  | json (status : ℕ) (ok : Bool) (error : Option String)
  | none
  deriving DecidableEq

/-- What a request does: the frame handed to `sock.send`, the frame on the bus, the answer. -/
structure Outcome where
  handed : Option (List UInt8) := none
  onBus : Option (List UInt8) := none
  reply : Reply
  deriving DecidableEq

/-- `self._json({"ok": err is None, "error": err})`. -/
def answer (err : Option String) : Reply := .json 200 err.isNone err

def canSend (net : Net) (canId : ℤ) (payload : List UInt8) (extended : Bool) : Outcome :=
  match buildCanFrame canId payload extended with
  | .error (.valueError text) => { reply := answer (some text) }
  | .error .structError => { reply := .none }
  | .ok frame =>
      match net.socket, net.bind, net.send, net.close with
      | some err, _, _, _ => { reply := answer (some err) }
      | none, some err, _, _ => { reply := answer (some err) }
      | none, none, some err, _ => { handed := some frame, reply := answer (some err) }
      | none, none, none, err => { handed := some frame, onBus := some frame, reply := answer err }

/-- `str(body.get("id", "123"))`. -/
def idText (py : Python) (body : List (String × Json)) : String :=
  py.str (get body "id" (.str "123"))

/-- `str(body.get("data", "")).replace(" ", "")`. -/
def dataText (py : Python) (body : List (String × Json)) : String :=
  String.ofList ((py.str (get body "data" (.str ""))).toList.filter (· ≠ ' '))

/-- `bool(body.get("ext", False))`. -/
def extFlag (body : List (String × Json)) : Bool := (get body "ext" (.bool false)).truthy

/-- The branch of `do_POST` for `/api/can/send`. -/
def postCanSend (py : Python) (net : Net) (body : List (String × Json)) : Outcome :=
  match py.intBase16 (idText py body), py.fromHex (dataText py body) with
  | .error exc, _ => { reply := .json 400 false (some exc) }
  | .ok _, .error exc => { reply := .json 400 false (some exc) }
  | .ok canId, .ok payload => canSend net canId payload (extFlag body)

/-! ## What was asked for -/

/-- The largest identifier of a format. -/
def identMask (e : Bool) : ℕ := if e then canEffMask else canSffMask

/-- The identifier fits the format. -/
def Fits (n : ℤ) (e : Bool) : Prop := 0 ≤ n ∧ n ≤ identMask e

instance (n : ℤ) (e : Bool) : Decidable (Fits n e) := inferInstanceAs (Decidable (_ ∧ _))

/-- The frame is the data frame with identifier `n` in the format `e` that carries `p`. -/
structure Carries (n : ℤ) (p : List UInt8) (e : Bool) (frame : List UInt8) : Prop where
  rtr : (unpack frame).1 &&& canRtrFlag = 0
  err : (unpack frame).1 &&& canErrFlag = 0
  eff : (unpack frame).1 &&& canEffFlag ≠ 0 ↔ e = true
  ident : (((unpack frame).1 &&& identMask e : ℕ) : ℤ) = n
  dlc : (unpack frame).2.1 = p.length
  data : (unpack frame).2.2.take p.length = p

/-- The request got what it asked for, or was refused with an error if it could not be. -/
structure AsAsked (n : ℤ) (p : List UInt8) (e : Bool) (o : Outcome) : Prop where
  carried : ∀ frame ∈ o.handed, Fits n e ∧ Carries n p e frame
  refused : ¬ Fits n e ∨ 8 < p.length →
    o.onBus = none ∧ ∃ status err, o.reply = .json status false (some err)

/-! ## The word -/

theorem and_flag_eq_zero {w i : ℕ} (h : w.testBit i = false) : w &&& 2 ^ i = 0 := by
  rw [Nat.and_two_pow, h]
  exact Nat.zero_mul _

/-- The word of a frame: the flag of the extended format over an identifier below it. -/
def wordOf (n : ℕ) (e : Bool) : ℕ := n ||| if e then canEffFlag else 0

variable {n : ℕ} {e : Bool}

theorem identMask_lt (e : Bool) : identMask e < 2 ^ 29 := by cases e <;> decide

theorem testBit_wordOf (n i : ℕ) (e : Bool) :
    (wordOf n e).testBit i = (n.testBit i || (e && decide (i = 31))) := by
  rw [wordOf, Nat.testBit_or]
  cases e with
  | false => simp
  | true =>
      have hflag : canEffFlag = 2 ^ 31 := rfl
      rw [if_pos rfl, hflag, Nat.testBit_two_pow]
      simp [eq_comm]

/-- Above an identifier that fits there is the format flag and nothing else. -/
theorem testBit_wordOf_of_fits (h : n ≤ identMask e) {i : ℕ} (hi : 29 ≤ i) :
    (wordOf n e).testBit i = (e && decide (i = 31)) := by
  have hn : n < 2 ^ i := calc
    n < 2 ^ 29 := lt_of_le_of_lt h (identMask_lt e)
    _ ≤ 2 ^ i := Nat.pow_le_pow_right (by decide) hi
  rw [testBit_wordOf, Nat.testBit_lt_two_pow hn, Bool.false_or]

theorem wordOf_lt (h : n ≤ identMask e) : wordOf n e < 2 ^ 32 := by
  refine Nat.lt_pow_two_of_testBit _ fun i hi => ?_
  rw [testBit_wordOf_of_fits h (by omega)]
  have hne : i ≠ 31 := by omega
  simp [hne]

theorem wordOf_and_identMask (h : n ≤ identMask e) : wordOf n e &&& identMask e = n := by
  cases e with
  | false =>
      have hmask : identMask false = 2 ^ 11 - 1 := rfl
      have hn : n < 2 ^ 11 := by rw [hmask] at h; omega
      show (n ||| 0) &&& identMask false = n
      rw [Nat.or_zero, hmask, Nat.and_two_pow_sub_one_eq_mod, Nat.mod_eq_of_lt hn]
  | true =>
      have hmask : identMask true = 2 ^ 29 - 1 := rfl
      have hn : n < 2 ^ 29 := by rw [hmask] at h; omega
      have hflag : canEffFlag % 2 ^ 29 = 0 := rfl
      show (n ||| canEffFlag) &&& identMask true = n
      rw [hmask, Nat.and_two_pow_sub_one_eq_mod, Nat.or_mod_two_pow, hflag, Nat.or_zero,
        Nat.mod_eq_of_lt hn]

/-! ## The frame that is built -/

theorem unpack_pack {ident : ℤ} {length : ℕ} {data frame : List UInt8}
    (h : pack ident length data = .ok frame) :
    unpack frame = (ident.toNat, length, ljust8 (data.take 8)) := by
  rw [pack] at h
  split at h
  case isFalse => cases h
  case isTrue hfit =>
      obtain ⟨h0, hlt, hlen⟩ := hfit
      cases h
      have hword : ident.toNat < 256 ^ 4 := by omega
      have hlen' : (UInt8.ofNat length).toNat = length := by
        rw [UInt8.toNat_ofNat']
        exact Nat.mod_eq_of_lt hlen
      have hsize := LittleEndian.length_encode 4 ident.toNat
      have htake : ∀ rest, (LittleEndian.encode 4 ident.toNat ++ rest).take 4 =
          LittleEndian.encode 4 ident.toNat := fun rest => List.take_left' hsize
      have hdrop : ∀ rest, (LittleEndian.encode 4 ident.toNat ++ rest).drop 4 = rest :=
        fun rest => List.drop_left' hsize
      simp only [unpack, List.append_assoc, htake, hdrop, LittleEndian.decode_encode hword]
      refine Prod.ext rfl (Prod.ext ?_ ?_)
      · show (UInt8.ofNat length).toNat + 256 * 0 = length
        omega
      · show (List.drop 8 (LittleEndian.encode 4 ident.toNat ++ _)) = _
        rw [← List.drop_drop (i := 4) (j := 4), hdrop]
        rfl

theorem pack_error {ident : ℤ} {length : ℕ} {data : List UInt8} {err : PyError}
    (h : pack ident length data = .error err) : err = .structError := by
  rw [pack] at h
  split at h
  · cases h
  · exact (Except.error.inj h).symm

theorem ljust8_length {p : List UInt8} (h : p.length ≤ 8) : (ljust8 p).length = 8 := by
  rw [ljust8, List.length_append, List.length_replicate]
  omega

theorem ljust8_of_length {p : List UInt8} (h : p.length = 8) : ljust8 p = p := by
  rw [ljust8, h]
  exact List.append_nil p

/-- An identifier that fits and a payload of at most eight bytes make the frame asked for. -/
theorem buildCanFrame_of_fits {p : List UInt8} (hn : n ≤ identMask e) (hp : p.length ≤ 8) :
    ∃ frame, buildCanFrame n p e = .ok frame ∧ Carries n p e frame := by
  have hlor : (n : ℤ).lor (if e then canEffFlag else 0) = (wordOf n e : ℤ) := by
    cases e <;> rfl
  have hlt := wordOf_lt hn
  have hfit : 0 ≤ (wordOf n e : ℤ) ∧ (wordOf n e : ℤ) < 2 ^ 32 ∧ p.length < 256 := by omega
  have hpack : ∃ frame, pack (wordOf n e) p.length (ljust8 p) = .ok frame := ⟨_, if_pos hfit⟩
  obtain ⟨frame, hframe⟩ := hpack
  have hun := unpack_pack hframe
  rw [Int.toNat_natCast] at hun
  have hbit : ∀ i, 29 ≤ i → i ≠ 31 → (wordOf n e).testBit i = false := fun i hi hne => by
    rw [testBit_wordOf_of_fits hn hi]
    simp [hne]
  have hdata : (ljust8 ((ljust8 p).take 8)).take p.length = p := by
    rw [List.take_of_length_le (ljust8_length hp).le, ljust8_of_length (ljust8_length hp)]
    exact List.take_left
  refine ⟨frame, ?_, ?_⟩
  · rw [buildCanFrame, if_neg (by omega), hlor, hframe]
  · constructor <;> rw [hun]
    case rtr => exact and_flag_eq_zero (hbit 30 (by decide) (by decide))
    case err => exact and_flag_eq_zero (hbit 29 (by decide) (by decide))
    case eff =>
        show wordOf n e &&& 2 ^ 31 ≠ 0 ↔ e = true
        rw [Nat.and_two_pow, testBit_wordOf_of_fits hn (by decide)]
        cases e <;> decide
    case ident => exact congrArg Nat.cast (wordOf_and_identMask hn)
    case data => exact hdata

/-! ## The request, for every outcome of the socket -/

variable {p : List UInt8}

/-- A payload that is too long is refused whatever the identifier. -/
theorem canSend_long (net : Net) (n : ℤ) (hp : 8 < p.length) :
    canSend net n p e = { reply := answer (some "payload longer than 8 bytes") } := by
  rw [canSend, buildCanFrame, if_pos hp]

/-- Whatever the socket does, only the frame that was built is handed to it. -/
theorem canSend_handed {net : Net} {n : ℤ} {frame frame' : List UInt8}
    (hbuild : buildCanFrame n p e = .ok frame)
    (h : frame' ∈ (canSend net n p e).handed) : frame' = frame := by
  rw [canSend, hbuild] at h
  obtain ⟨socket, bind, send, close⟩ := net
  cases socket <;> cases bind <;> cases send <;> simp at h
  all_goals exact h.symm

theorem asAsked_of_long (net : Net) {n : ℤ} (hp : 8 < p.length) :
    AsAsked n p e (canSend net n p e) := by
  rw [canSend_long net n hp]
  exact ⟨nofun, fun _ => ⟨rfl, _, _, rfl⟩⟩

theorem asAsked_of_fits (net : Net) {n : ℤ} (hn : Fits n e) (hp : p.length ≤ 8) :
    AsAsked n p e (canSend net n p e) := by
  obtain ⟨m, rfl⟩ := Int.eq_ofNat_of_zero_le hn.1
  obtain ⟨frame, hbuild, hcarries⟩ := buildCanFrame_of_fits (Int.ofNat_le.mp hn.2) hp
  constructor
  · intro frame' hframe'
    obtain rfl := canSend_handed hbuild hframe'
    exact ⟨hn, hcarries⟩
  · rintro (hnot | hlong)
    · exact absurd hn hnot
    · exact absurd hlong (not_lt.mpr hp)

/-- With a socket that works, an identifier that does not fit is either sent or raises past
the handler. -/
theorem not_asAsked {n : ℤ} (hn : ¬ Fits n e) (hp : p.length ≤ 8) :
    ¬ AsAsked n p e (canSend {} n p e) := by
  intro h
  cases hbuild : buildCanFrame n p e with
  | ok frame =>
      have hhanded : (canSend {} n p e).handed = some frame := by
        rw [canSend, hbuild]
      exact hn (h.carried frame hhanded).1
  | error err =>
      have hstruct : err = .structError := by
        rw [buildCanFrame, if_neg (not_lt.mpr hp)] at hbuild
        exact pack_error hbuild
      obtain ⟨-, status, text, hreply⟩ := h.refused (.inl hn)
      rw [canSend, hbuild, hstruct] at hreply
      cases hreply

/-- **What goes on the bus is what was asked for** exactly when the payload is too long or the
identifier fits its format: the identifier is checked nowhere. -/
theorem can_send_iff (py : Python) (body : List (String × Json)) {n : ℤ}
    (hid : py.intBase16 (idText py body) = .ok n)
    (hdata : py.fromHex (dataText py body) = .ok p) :
    (∀ net, AsAsked n p (extFlag body) (postCanSend py net body)) ↔
      8 < p.length ∨ Fits n (extFlag body) := by
  have hpost : ∀ net, postCanSend py net body = canSend net n p (extFlag body) := by
    intro net
    rw [postCanSend, hid, hdata]
  simp only [hpost]
  constructor
  · intro hall
    by_contra hnot
    obtain ⟨hlong, hfits⟩ := not_or.mp hnot
    exact not_asAsked hfits (not_lt.mp hlong) (hall {})
  · rintro (hlong | hfits) net
    · exact asAsked_of_long net hlong
    · rcases Nat.lt_or_ge 8 p.length with hlong | hshort
      · exact asAsked_of_long net hlong
      · exact asAsked_of_fits net hfits hshort

/-! ## Two requests -/

/-- The digit's value. -/
def hexDigit (c : Char) : Option ℕ :=
  if c.isDigit then some (c.toNat - '0'.toNat)
  else if 'A' ≤ c ∧ c ≤ 'F' then some (c.toNat - 'A'.toNat + 10)
  else none

/-- The number that upper-case hex digits stand for. -/
def readHex (cs : List Char) : Option ℕ :=
  cs.foldlM (fun n c => (hexDigit c).map (16 * n + ·)) 0

/-- The conversions, on strings and plain hex digits. -/
def plainPython : Python where
  str
    | .str s => s
    | _ => ""
  intBase16 s :=
    match readHex s.toList with
    | some n => .ok n
    | none => .error "invalid literal for int() with base 16"
  fromHex s :=
    match s.toList with
    | [] => .ok []
    | [a, b] => match readHex [a, b] with
        | some n => .ok [UInt8.ofNat n]
        | none => .error "non-hexadecimal number found in fromhex() arg"
    | _ => .error "non-hexadecimal number found in fromhex() arg"

/-- `7FF` without `ext`, and one byte. -/
theorem can_send_iff_7FF : AsAsked 0x7FF [0xAB] false
    (postCanSend plainPython {} [("id", .str "7FF"), ("data", .str "AB")]) :=
  (can_send_iff plainPython [("id", .str "7FF"), ("data", .str "AB")]
    (by decide) (by decide)).mpr (.inr (by decide)) {}

/-- `FFF` without `ext`: a standard identifier of twelve bits is handed to the socket. -/
theorem can_send_broken : ¬ ∀ py body n p, py.intBase16 (idText py body) = .ok n →
    py.fromHex (dataText py body) = .ok p → ∀ net, AsAsked n p (extFlag body)
      (postCanSend py net body) := by
  intro hall
  have h := hall plainPython [("id", .str "FFF")] 0xFFF [] (by decide) (by decide) {}
  exact absurd (h.carried _ rfl).1 (by decide)

end JetsonPerception.Console
