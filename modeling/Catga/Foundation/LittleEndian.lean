import Mathlib.Algebra.Ring.Int.Defs
import Mathlib.Algebra.Ring.Nat

/-!
# Fixed-width little-endian numbers

A natural number below `256 ^ width` as exactly `width` bytes, least significant first, and a
two's-complement reading of four bytes.
-/

namespace LittleEndian

/-- The `width` least significant bytes of a number. -/
def encode : Nat → Nat → List UInt8
  | 0, _ => []
  | width + 1, value => UInt8.ofNat value :: encode width (value / 256)

/-- The number a list of bytes stands for. -/
def decode : List UInt8 → Nat
  | [] => 0
  | byte :: bytes => byte.toNat + 256 * decode bytes

@[simp] lemma length_encode (width value : Nat) : (encode width value).length = width := by
  induction width generalizing value with
  | zero => rfl
  | succ width ih => simp [encode, ih]

lemma decode_encode {width value} (fits : value < 256 ^ width) :
    decode (encode width value) = value := by
  induction width generalizing value with
  | zero =>
    have value_eq : value = 0 := by simpa using fits
    rw [value_eq]
    rfl
  | succ width ih =>
    have quotient_fits : value / 256 < 256 ^ width := by
      rw [Nat.pow_succ] at fits
      exact Nat.div_lt_of_lt_mul (by rwa [Nat.mul_comm] at fits)
    have low : (UInt8.ofNat value).toNat = value % 256 := by simp
    rw [encode, decode, ih quotient_fits, low]
    exact Nat.mod_add_div value 256

/-- A number read as a signed one of 32 bits. -/
def toSigned (value : Nat) : Int :=
  if value < 2 ^ 31 then value else value - 2 ^ 32

def ofSigned (value : Int) : Nat := (value % 2 ^ 32).toNat

lemma ofSigned_lt (value : Int) : ofSigned value < 256 ^ 4 := by
  simp only [ofSigned]
  omega

lemma toSigned_ofSigned {value} (lower : -2 ^ 31 ≤ value) (upper : value < 2 ^ 31) :
    toSigned (ofSigned value) = value := by
  by_cases small : ofSigned value < 2 ^ 31
  · rw [toSigned, if_pos small]
    simp only [ofSigned] at small ⊢
    omega
  · rw [toSigned, if_neg small]
    simp only [ofSigned] at small ⊢
    omega

end LittleEndian
