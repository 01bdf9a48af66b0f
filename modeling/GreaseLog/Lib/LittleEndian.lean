import Mathlib.Algebra.Group.Nat.Defs
import Mathlib.Data.Nat.Basic

/- Words of a fixed number of bytes, lowest byte first. Missing bytes read as 0. -/
namespace LittleEndian

def encode : Nat → Nat → List UInt8
  | 0, _ => []
  | width + 1, value => UInt8.ofNat value :: encode width (value / 256)

def decode : List UInt8 → Nat
  | [] => 0
  | byte :: rest => byte.toNat + 256 * decode rest

@[simp] theorem encode_length (width value : Nat) : (encode width value).length = width := by
  induction width generalizing value with
  | zero => rfl
  | succ width ih => simp [encode, ih]

theorem decode_encode {width value : Nat} (fits : value < 256 ^ width) :
    decode (encode width value) = value := by
  induction width generalizing value with
  | zero =>
    simp only [Nat.pow_zero, Nat.lt_one_iff] at fits
    simp [encode, decode, fits]
  | succ width ih =>
    have rest : value / 256 < 256 ^ width := by
      rw [Nat.div_lt_iff_lt_mul (by decide), ← Nat.pow_succ]
      exact fits
    have first : (UInt8.ofNat value).toNat = value % 256 := by simp
    rw [encode, decode, ih rest, first]
    omega

theorem decode_front {width value : Nat} (fits : value < 256 ^ width) (rest : List UInt8) :
    decode ((encode width value ++ rest).take width) = value := by
  rw [List.take_left' (encode_length width value), decode_encode fits]

end LittleEndian
