import CellFilter.Bytes
import Mathlib.Algebra.Ring.Nat

/-!
# Fixed width integers read back

Reading the bytes of a number yields the number modulo the range of its width, hence the number
itself if it fits.
-/

namespace CellFilter.Bytes

theorem ofLittleEndian_littleEndian (width n : Nat) :
    ofLittleEndian (littleEndian width n) = n % 256 ^ width := by
  induction width generalizing n with
  | zero => simp [littleEndian, ofLittleEndian, Nat.mod_one]
  | succ width ih =>
    simp only [littleEndian, ofLittleEndian, ih, Nat.pow_succ]
    rw [Nat.mul_comm (256 ^ width) 256, Nat.mod_mul]
    simp [Nat.toUInt8]

/-- A number that fits its width reads back. -/
theorem ofBigEndian_bigEndian {width n : Nat} (h : n < 256 ^ width) :
    ofBigEndian (bigEndian width n) = n := by
  simp [ofBigEndian, bigEndian, ofLittleEndian_littleEndian, Nat.mod_eq_of_lt h]

end CellFilter.Bytes
