/-
# Little-endian numbers

The bytes of a natural number, least significant first, in a fixed width, and
the number that a list of bytes stands for.
-/
import Mathlib.Data.Nat.Notation
import Mathlib.Tactic.Ring

namespace LittleEndian

/-- The lowest `width` bytes of `n`. -/
def encode : (width n : ℕ) → List UInt8
  | 0, _ => []
  | width + 1, n => UInt8.ofNat n :: encode width (n / 256)

def decode : List UInt8 → ℕ
  | [] => 0
  | b :: bs => b.toNat + 256 * decode bs

@[simp] theorem length_encode (width n : ℕ) : (encode width n).length = width := by
  induction width generalizing n with
  | zero => rfl
  | succ width ih => rw [encode, List.length_cons, ih]

/-- A number that fits is read back. -/
theorem decode_encode {width n : ℕ} (h : n < 256 ^ width) : decode (encode width n) = n := by
  induction width generalizing n with
  | zero => exact (Nat.lt_one_iff.mp h).symm
  | succ width ih =>
      have hdiv : n / 256 < 256 ^ width := by
        rw [pow_succ'] at h
        exact Nat.div_lt_of_lt_mul h
      rw [encode, decode, ih hdiv, UInt8.toNat_ofNat']
      exact Nat.mod_add_div n 256

/-- Bytes are read and written back. -/
theorem encode_decode : ∀ bs : List UInt8, encode bs.length (decode bs) = bs
  | [] => rfl
  | b :: bs => by
      have hb : b.toNat < 256 := b.toNat_lt
      have hlow : UInt8.ofNat (b.toNat + 256 * decode bs) = b := by
        apply UInt8.toNat.inj
        rw [UInt8.toNat_ofNat']
        omega
      have hrest : (b.toNat + 256 * decode bs) / 256 = decode bs := by omega
      rw [List.length_cons, decode, encode, hlow, hrest, encode_decode bs]

theorem decode_lt : ∀ bs : List UInt8, decode bs < 256 ^ bs.length
  | [] => by decide
  | b :: bs => by
      have hb : b.toNat < 256 := b.toNat_lt
      have ih := decode_lt bs
      rw [List.length_cons, decode, pow_succ']
      omega

end LittleEndian
