/-
# The CAN codec is a bijection on valid frames

`parse_can_frame` against `build_can_frame`.  A frame that was built says what it was built from
(`parse_of_carries`), and a valid frame that was parsed is built again from what was shown of it,
with its padding cleared (`build_of_valid`): the two are inverse on valid frames (`can_codec`).

The identifier and the data go through text.  Identifiers are zero-padded upper-case hex of a
width that the format decides, data is two digits a byte.
-/
import JetsonPerception.Console.Can
import Mathlib.Data.Nat.Digits.Lemmas

namespace JetsonPerception.Console

/-! ## Hex text -/

/-- The upper-case digit of a value below sixteen. -/
def hexChar (d : ℕ) : Char :=
  if d < 10 then Char.ofNat ('0'.toNat + d) else Char.ofNat ('A'.toNat + (d - 10))

/-- `"{:0wX}".format(n)`. -/
def formatX (width n : ℕ) : List Char :=
  ((Nat.digits 16 n).reverse.leftpad width 0).map hexChar

/-- `bs.hex().upper()`. -/
def hexUpper (bs : List UInt8) : List Char :=
  bs.flatMap fun b => [hexChar (b.toNat / 16), hexChar (b.toNat % 16)]

/-- `bytes.fromhex`, on digits without blanks. -/
def bytesFromHex : List Char → Option (List UInt8)
  | [] => some []
  | [_] => none
  | a :: b :: rest => do
      let n ← readHex [a, b]
      let bs ← bytesFromHex rest
      pure (UInt8.ofNat n :: bs)

theorem hexDigit_hexChar : ∀ d < 16, hexDigit (hexChar d) = some d := by decide

/-- Digits are read most significant first. -/
theorem foldlM_hexChar (ds : List ℕ) (hds : ∀ d ∈ ds, d < 16) : ∀ n,
    (ds.map hexChar).foldlM (fun n c => (hexDigit c).map (16 * n + ·)) n =
      some (ds.foldl (fun n d => 16 * n + d) n) := by
  induction ds with
  | nil => intro n; rfl
  | cons d ds ih =>
      intro n
      have hd : hexDigit (hexChar d) = some d := hexDigit_hexChar d (hds d List.mem_cons_self)
      rw [List.map_cons, List.foldlM_cons, hd]
      exact ih (fun d hd => hds d (List.mem_cons_of_mem _ hd)) _

theorem readHex_map (ds : List ℕ) (hds : ∀ d ∈ ds, d < 16) :
    readHex (ds.map hexChar) = some (ds.foldl (fun n d => 16 * n + d) 0) :=
  foldlM_hexChar ds hds 0

/-- Leading zeros are not read. -/
theorem foldl_leftpad (width : ℕ) (ds : List ℕ) :
    (ds.leftpad width 0).foldl (fun n d => 16 * n + d) 0 =
      ds.foldl (fun n d => 16 * n + d) 0 := by
  have hzeros : ∀ k, (List.replicate k 0).foldl (fun n d => 16 * n + d) 0 = 0 := by
    intro k
    induction k with
    | zero => rfl
    | succ k ih => rw [List.replicate_succ, List.foldl_cons]; exact ih
  rw [List.leftpad, List.foldl_append, hzeros]

/-- A number that is formatted reads back, whatever the width. -/
theorem readHex_formatX (width n : ℕ) : readHex (formatX width n) = some n := by
  have hdigits : ∀ d ∈ (Nat.digits 16 n).reverse.leftpad width 0, d < 16 := by
    intro d hd
    rw [List.leftpad, List.mem_append, List.mem_replicate, List.mem_reverse] at hd
    rcases hd with ⟨-, rfl⟩ | hd
    · decide
    · exact Nat.digits_lt_base (by decide) hd
  rw [formatX, readHex_map _ hdigits, foldl_leftpad, List.foldl_reverse]
  have hvalue : (Nat.digits 16 n).foldr (fun d n => 16 * n + d) 0 = n := by
    have hof := Nat.ofDigits_digits 16 n
    rw [Nat.ofDigits_eq_foldr] at hof
    simpa [Nat.add_comm] using hof
  rw [hvalue]

/-- A number that fits takes exactly the width. -/
theorem length_formatX {width n : ℕ} (h : n < 16 ^ width) : (formatX width n).length = width := by
  have hle := (Nat.digits_length_le_iff (by decide : 1 < 16) n).mpr h
  rw [formatX, List.length_map, List.length_leftpad, List.length_reverse]
  exact Nat.max_eq_left hle

theorem bytesFromHex_hexUpper (bs : List UInt8) : bytesFromHex (hexUpper bs) = some bs := by
  induction bs with
  | nil => rfl
  | cons b bs ih =>
      have hb : b.toNat < 256 := b.toNat_lt
      have hread : readHex [hexChar (b.toNat / 16), hexChar (b.toNat % 16)] = some b.toNat := by
        have hmap := readHex_map [b.toNat / 16, b.toNat % 16] (by simp; omega)
        simp only [List.map_cons, List.map_nil, List.foldl_cons, List.foldl_nil] at hmap
        rw [hmap]
        congr 1
        omega
      have hcons : hexUpper (b :: bs) =
          hexChar (b.toNat / 16) :: hexChar (b.toNat % 16) :: hexUpper bs := rfl
      rw [hcons, bytesFromHex, hread, ih]
      show some (UInt8.ofNat b.toNat :: bs) = some (b :: bs)
      rw [UInt8.ofNat_toNat]

/-! ## Parsing a frame -/

/-- `CAN_FRAME_SIZE`. -/
def canFrameSize : ℕ := 16

/-- What `parse_can_frame` shows of a frame. -/
structure CanEntry where
  id : String
  ext : Bool
  rtr : Bool
  err : Bool
  dlc : ℕ
  data : String
  deriving DecidableEq

def parseCanFrame (raw : List UInt8) : Option CanEntry :=
  if raw.length < canFrameSize then none
  else
    let (canId, length, data) := unpack (raw.take canFrameSize)
    let extended := canId &&& canEffFlag != 0
    some
      { id := String.ofList (if extended then formatX 8 (canId &&& canEffMask)
          else formatX 3 (canId &&& canSffMask))
        ext := extended
        rtr := canId &&& canRtrFlag != 0
        err := canId &&& canErrFlag != 0
        dlc := length
        data := String.ofList (hexUpper (data.take length)) }

/-- The digits of an identifier. -/
def idWidth (e : Bool) : ℕ := if e then 8 else 3

theorem identMask_lt_pow (e : Bool) : identMask e < 16 ^ idWidth e := by
  cases e <;> decide

variable {n : ℕ} {p raw : List UInt8} {e : Bool}

/-- A frame that carries a message shows it. -/
theorem parse_of_carries (hsize : raw.length = canFrameSize) (h : Carries n p e raw) :
    parseCanFrame raw = some
      { id := String.ofList (formatX (idWidth e) n), ext := e, rtr := false, err := false
        dlc := p.length, data := String.ofList (hexUpper p) } := by
  have hext : ((unpack raw).1 &&& canEffFlag != 0) = e := by
    rw [Bool.eq_iff_iff, bne_iff_ne]
    exact h.eff
  have hrtr : ((unpack raw).1 &&& canRtrFlag != 0) = false := by simp [h.rtr]
  have herr : ((unpack raw).1 &&& canErrFlag != 0) = false := by simp [h.err]
  have hid : (if e then formatX 8 ((unpack raw).1 &&& canEffMask)
      else formatX 3 ((unpack raw).1 &&& canSffMask)) = formatX (idWidth e) n := by
    have hmask : (unpack raw).1 &&& identMask e = n := by exact_mod_cast h.ident
    cases e <;> rw [← hmask] <;> rfl
  rw [parseCanFrame, if_neg (by omega), List.take_of_length_le hsize.le]
  simp only [hext, hrtr, herr, hid, h.dlc, h.data]

/-- What is built has the size of a frame. -/
theorem length_of_pack {ident : ℤ} {length : ℕ} {data : List UInt8}
    (h : pack ident length data = .ok raw) : raw.length = canFrameSize := by
  rw [pack] at h
  split at h
  · cases h
    have htake : (data.take 8).length ≤ 8 := List.length_take_le _ _
    simp only [List.length_append, LittleEndian.length_encode, List.length_singleton,
      List.length_replicate, ljust8_length htake, canFrameSize]
  · cases h

theorem length_of_build {n : ℤ} (h : buildCanFrame n p e = .ok raw) :
    raw.length = canFrameSize := by
  rw [buildCanFrame] at h
  split at h
  · cases h
  · exact length_of_pack h

/-! ## Building it again -/

/-- A data frame of at most eight bytes, without identifier bits that its format has not. -/
structure ValidFrame (raw : List UInt8) : Prop where
  size : raw.length = canFrameSize
  dlc : (unpack raw).2.1 ≤ 8
  rtr : (unpack raw).1 &&& canRtrFlag = 0
  err : (unpack raw).1 &&& canErrFlag = 0
  standard : (unpack raw).1 &&& canEffFlag = 0 →
    ∀ i, 11 ≤ i → i ≤ 28 → (unpack raw).1.testBit i = false

/-- The frame with its three pad bytes and the data beyond its length set to zero. -/
def cleared (raw : List UInt8) : List UInt8 :=
  raw.take 5 ++ List.replicate 3 0 ++ ljust8 ((unpack raw).2.2.take (unpack raw).2.1)

theorem testBit_of_and_flag {w i : ℕ} (h : w &&& 2 ^ i = 0) : w.testBit i = false := by
  rw [Nat.and_two_pow] at h
  cases hb : w.testBit i with
  | false => rfl
  | true =>
      rw [hb] at h
      exact absurd h (by simp)

theorem testBit_identMask (e : Bool) (i : ℕ) :
    (identMask e).testBit i = decide (i < if e then 29 else 11) := by
  cases e with
  | false =>
      have hmask : identMask false = 2 ^ 11 - 1 := rfl
      rw [hmask, Nat.testBit_two_pow_sub_one]
      rfl
  | true =>
      have hmask : identMask true = 2 ^ 29 - 1 := rfl
      rw [hmask, Nat.testBit_two_pow_sub_one]
      rfl

/-- A word whose bits above the identifier are the format flag's is that flag over the
identifier. -/
theorem word_eq {w : ℕ} (h31 : w.testBit 31 = e)
    (hclear : ∀ i, ¬ i < (if e then 29 else 11) → i ≠ 31 → w.testBit i = false) :
    w = wordOf (w &&& identMask e) e := by
  refine Nat.eq_of_testBit_eq fun i => ?_
  rw [testBit_wordOf, Nat.testBit_and, testBit_identMask]
  by_cases hlow : i < if e then 29 else 11
  · have hne : i ≠ 31 := by
      rintro rfl
      cases e <;> exact absurd hlow (by decide)
    simp [hlow, hne]
  · by_cases hi : i = 31
    · subst hi
      simp [hlow, h31]
    · simp [hlow, hi, hclear i hlow hi]

/-- The word of a valid frame is the format flag over the identifier. -/
theorem ValidFrame.word (h : ValidFrame raw) (he : ((unpack raw).1 &&& canEffFlag != 0) = e) :
    (unpack raw).1 = wordOf ((unpack raw).1 &&& identMask e) e := by
  have hlt : (unpack raw).1 < 2 ^ 32 := by
    have hfour : (raw.take 4).length ≤ 4 := List.length_take_le _ _
    calc (unpack raw).1 < 256 ^ (raw.take 4).length := LittleEndian.decode_lt (raw.take 4)
      _ ≤ 256 ^ 4 := Nat.pow_le_pow_right (by decide) hfour
      _ = 2 ^ 32 := by decide
  have h30 : (unpack raw).1.testBit 30 = false := testBit_of_and_flag h.rtr
  have h29 : (unpack raw).1.testBit 29 = false := testBit_of_and_flag h.err
  have hflag : (unpack raw).1 &&& canEffFlag = ((unpack raw).1.testBit 31).toNat * 2 ^ 31 :=
    Nat.and_two_pow _ 31
  have h31 : (unpack raw).1.testBit 31 = e := by
    rw [← he, hflag]
    cases (unpack raw).1.testBit 31 <;> rfl
  refine word_eq h31 fun i hlow hi => ?_
  rcases Nat.lt_or_ge i 32 with hsmall | hlarge
  · cases e with
    | true =>
        obtain rfl | rfl : i = 29 ∨ i = 30 := by
          simp only [if_true] at hlow
          omega
        · exact h29
        · exact h30
    | false =>
        simp only [Bool.false_eq_true, if_false] at hlow
        have hstandard := h.standard (by rw [hflag, h31]; rfl)
        rcases Nat.lt_or_ge i 29 with hid | hhigh
        · exact hstandard i (by omega) (by omega)
        · obtain rfl | rfl : i = 29 ∨ i = 30 := by omega
          · exact h29
          · exact h30
  · exact Nat.testBit_lt_two_pow (lt_of_lt_of_le hlt (Nat.pow_le_pow_right (by decide) hlarge))

/-- A valid frame carries what is shown of it. -/
theorem ValidFrame.carries (h : ValidFrame raw)
    (he : ((unpack raw).1 &&& canEffFlag != 0) = e) :
    Carries ((unpack raw).1 &&& identMask e : ℕ) ((unpack raw).2.2.take (unpack raw).2.1) e
      raw := by
  have hdata : (unpack raw).2.2.length = 8 := by
    have hsize := h.size
    simp only [unpack, List.length_drop, hsize, canFrameSize]
  have hlen : ((unpack raw).2.2.take (unpack raw).2.1).length = (unpack raw).2.1 := by
    rw [List.length_take, hdata]
    exact Nat.min_eq_left h.dlc
  constructor
  case rtr => exact h.rtr
  case err => exact h.err
  case eff => rw [← he, bne_iff_ne]
  case ident => rfl
  case dlc => exact hlen.symm
  case data => rw [hlen]

/-- The first five bytes are the word and the length. -/
theorem take_five (hsize : raw.length = canFrameSize) :
    raw.take 5 = LittleEndian.encode 4 (unpack raw).1 ++ [UInt8.ofNat (unpack raw).2.1] := by
  have hword : (raw.take 4).length = 4 := by
    rw [List.length_take, hsize]
    rfl
  have hlength : ((raw.drop 4).take 1).length = 1 := by
    rw [List.length_take, List.length_drop, hsize]
    rfl
  have hword' := LittleEndian.encode_decode (raw.take 4)
  have hlength' := LittleEndian.encode_decode ((raw.drop 4).take 1)
  rw [hword] at hword'
  rw [hlength] at hlength'
  calc raw.take 5 = raw.take 4 ++ (raw.drop 4).take 1 := by rw [← List.take_add]
    _ = LittleEndian.encode 4 (unpack raw).1 ++ LittleEndian.encode 1 (unpack raw).2.1 :=
        (congrArg₂ (· ++ ·) hword' hlength').symm

/-- A valid frame is built again from what it carries. -/
theorem build_of_valid (h : ValidFrame raw) (he : ((unpack raw).1 &&& canEffFlag != 0) = e) :
    buildCanFrame ((unpack raw).1 &&& identMask e : ℕ)
      ((unpack raw).2.2.take (unpack raw).2.1) e = .ok (cleared raw) := by
  have hcarries := h.carries he
  have hlen : ((unpack raw).2.2.take (unpack raw).2.1).length = (unpack raw).2.1 :=
    hcarries.dlc.symm
  have hshort : ((unpack raw).2.2.take (unpack raw).2.1).length ≤ 8 := by
    rw [hlen]
    exact h.dlc
  have hlor : ∀ n : ℕ, (n : ℤ).lor (if e then canEffFlag else 0) = (wordOf n e : ℤ) := by
    intro n
    cases e <;> rfl
  have hlt : (unpack raw).1 < 2 ^ 32 := by
    rw [h.word he]
    exact wordOf_lt Nat.and_le_right
  have hfit : 0 ≤ ((unpack raw).1 : ℤ) ∧ ((unpack raw).1 : ℤ) < 2 ^ 32 ∧
      ((unpack raw).2.2.take (unpack raw).2.1).length < 256 := by omega
  rw [buildCanFrame, if_neg (by omega), hlor, ← h.word he, pack, if_pos hfit, hlen,
    Int.toNat_natCast, List.take_of_length_le (ljust8_length hshort).le,
    ljust8_of_length (ljust8_length hshort), cleared, take_five h.size]

/-! ## The codec -/

/-- **`parse_can_frame` and `build_can_frame` are inverse on valid frames**, through the texts
that are shown. -/
theorem can_codec :
    (∀ (e : Bool) (n : ℕ) (p : List UInt8), n < 2 ^ (if e then 29 else 11) → p.length ≤ 8 →
      ∃ raw entry, buildCanFrame n p e = .ok raw ∧ parseCanFrame raw = some entry ∧
        entry.ext = e ∧ entry.rtr = false ∧ entry.err = false ∧ entry.dlc = p.length ∧
        entry.data = String.ofList (hexUpper p) ∧
        entry.id.length = (if e then 8 else 3) ∧ readHex entry.id.toList = some n) ∧
    ∀ raw, ValidFrame raw → ∃ entry n p, parseCanFrame raw = some entry ∧
      readHex entry.id.toList = some n ∧ bytesFromHex entry.data.toList = some p ∧
      buildCanFrame n p entry.ext = .ok (cleared raw) := by
  constructor
  · intro e n p hn hp
    have hn : n ≤ identMask e := by
      cases e <;> exact Nat.le_of_lt_succ hn
    obtain ⟨raw, hbuild, hcarries⟩ := buildCanFrame_of_fits hn hp
    refine ⟨raw, _, hbuild, parse_of_carries (length_of_build hbuild) hcarries, rfl, rfl, rfl, rfl,
      rfl, ?_, ?_⟩
    · show (String.ofList _).length = idWidth e
      rw [String.length_ofList]
      exact length_formatX (lt_of_le_of_lt hn (identMask_lt_pow e))
    · show readHex (String.ofList _).toList = some n
      rw [String.toList_ofList]
      exact readHex_formatX _ n
  · intro raw h
    have hcarries := h.carries rfl
    refine ⟨_, _, _, parse_of_carries h.size hcarries, ?_, ?_, build_of_valid h rfl⟩
    · show readHex (String.ofList _).toList = some _
      rw [String.toList_ofList]
      exact readHex_formatX _ _
    · show bytesFromHex (String.ofList _).toList = some _
      rw [String.toList_ofList]
      exact bytesFromHex_hexUpper _

/-- Identifier `123` with two bytes of data; the padding and the unused bytes are not zero. -/
def padded : List UInt8 := [0x23, 0x01, 0, 0, 2, 9, 9, 9, 0xAB, 0xCD, 7, 7, 7, 7, 7, 7]

theorem can_codec_padded : ∃ entry n p, parseCanFrame padded = some entry ∧
    readHex entry.id.toList = some n ∧ bytesFromHex entry.data.toList = some p ∧
    buildCanFrame n p entry.ext = .ok (cleared padded) := by
  have hbits : ∀ i < 29, 11 ≤ i → (unpack padded).1.testBit i = false := by decide
  exact can_codec.2 padded ⟨rfl, by decide, by decide, by decide,
    fun _ i hlow hhigh => hbits i (Nat.lt_succ_of_le hhigh) hlow⟩

end JetsonPerception.Console
