import CellFilter.Scalar
import Mathlib.Algebra.Ring.Nat
import Mathlib.Tactic.SplitIfs

/-!
# Words in order

A number is compared in three ways: as a whole number, as the bytes of its word, and as the signed
number that the same word stands for.  Big-endian bytes of one width are in the order of the whole
numbers.  The signed order is that of the whole numbers too as long as the top bits agree, and turns
round where they differ, since a word with the top bit set stands for a negative number.

* `Bytes.compare_bigEndian`: words as bytes.
* `compare_signedWord`: words as signed numbers.
-/

namespace CellFilter

/-! ## Bytes -/

namespace Bytes

/-- Byte strings of one length decide before what follows them. -/
theorem compare_append : ∀ {as bs : Bytes} (cs ds : Bytes), as.length = bs.length →
    compare (as ++ cs) (bs ++ ds) = (compare as bs).then (compare cs ds)
  | [], [], _, _, _ => rfl
  | a :: as, b :: bs, cs, ds, h => by
    simp only [List.cons_append, compare]
    split_ifs
    · rfl
    · rfl
    · exact compare_append cs ds (Nat.succ.inj h)

theorem bigEndian_succ (width n : Nat) :
    bigEndian (width + 1) n = bigEndian width (n / 256) ++ [n.toUInt8] := by
  rw [bigEndian, littleEndian, List.reverse_cons]
  rfl

theorem compare_singleton (a b : Nat) :
    compare [a.toUInt8] [b.toUInt8] = Ord.compare (a % 256) (b % 256) := by
  have hlt : ∀ a b : Nat, a.toUInt8 < b.toUInt8 ↔ a % 256 < b % 256 := fun a b => by
    rw [UInt8.lt_iff_toNat_lt]
    rfl
  simp only [compare, hlt]
  rcases Nat.lt_trichotomy (a % 256) (b % 256) with h | h | h
  · rw [if_pos h, Nat.compare_eq_lt.mpr h]
  · rw [if_neg (by omega), if_neg (by omega), Nat.compare_eq_eq.mpr h]
  · rw [if_neg (by omega), if_pos h, Nat.compare_eq_gt.mpr h]

end Bytes

/-- Numbers are compared by their quotients, then by their remainders. -/
theorem compare_div_mod (a b d : Nat) :
    (compare (a / d) (b / d)).then (compare (a % d) (b % d)) = compare a b := by
  rcases Nat.lt_trichotomy (a / d) (b / d) with h | h | h
  · rw [Nat.compare_eq_lt.mpr h, Nat.compare_eq_lt.mpr (Nat.lt_of_div_lt_div h)]
    rfl
  · rw [Nat.compare_eq_eq.mpr h]
    have ha := Nat.div_add_mod a d
    have hb := Nat.div_add_mod b d
    rw [h] at ha
    rcases Nat.lt_trichotomy (a % d) (b % d) with hmod | hmod | hmod
    · rw [Nat.compare_eq_lt.mpr hmod, Nat.compare_eq_lt.mpr (by omega)]
      rfl
    · rw [Nat.compare_eq_eq.mpr hmod, Nat.compare_eq_eq.mpr (by omega)]
      rfl
    · rw [Nat.compare_eq_gt.mpr hmod, Nat.compare_eq_gt.mpr (by omega)]
      rfl
  · rw [Nat.compare_eq_gt.mpr h, Nat.compare_eq_gt.mpr (Nat.lt_of_div_lt_div h)]
    rfl

/-- **Big-endian bytes** are in the order of the numbers. -/
theorem Bytes.compare_bigEndian : ∀ {width a b : Nat}, a < 256 ^ width → b < 256 ^ width →
    compare (bigEndian width a) (bigEndian width b) = Ord.compare a b
  | 0, a, b, ha, hb => by
    obtain rfl : a = 0 := by simpa using ha
    obtain rfl : b = 0 := by simpa using hb
    rfl
  | width + 1, a, b, ha, hb => by
    rw [Nat.pow_succ] at ha hb
    rw [bigEndian_succ, bigEndian_succ, compare_append _ _ (by simp), compare_singleton,
      compare_bigEndian (Nat.div_lt_of_lt_mul (by omega)) (Nat.div_lt_of_lt_mul (by omega)),
      compare_div_mod]

/-! ## Signed numbers -/

/-- The signed number of a word of `2 * half` values: words with the top bit set are negative. -/
def signedWord (half n : Nat) : Int := if n < half then n else (n : Int) - 2 * half

theorem signedWord_neg_iff {half n : Nat} (h : n < 2 * half) :
    signedWord half n < 0 ↔ ¬ n < half := by
  unfold signedWord
  split <;> omega

/-- Integers and whole numbers that stand to each other alike are compared alike. -/
theorem compare_int_eq {i j : Int} {a b : Nat} (hlt : i < j ↔ a < b) (hgt : j < i ↔ b < a) :
    compare i j = compare a b := by
  rw [Int.compare_eq_ite_lt, Nat.compare_eq_ite_lt]
  simp only [hlt, hgt]

/-- **Words as signed numbers** are in the order of the whole numbers if the top bits agree, and the
other way round if they differ. -/
theorem compare_signedWord {half a b : Nat} (ha : a < 2 * half) (hb : b < 2 * half) :
    compare (signedWord half a) (signedWord half b) =
      if a < half ↔ b < half then compare a b else compare b a := by
  unfold signedWord
  by_cases h : a < half ↔ b < half
  · rw [if_pos h]
    exact compare_int_eq (by split_ifs <;> omega) (by split_ifs <;> omega)
  · rw [if_neg h]
    exact compare_int_eq (by split_ifs <;> omega) (by split_ifs <;> omega)

theorem signedWord_int32 (n : Int32) : n.toInt = signedWord 2147483648 n.toUInt32.toNat := by
  have h := BitVec.toInt_eq_toNat_cond n.toBitVec
  show n.toBitVec.toInt = signedWord 2147483648 n.toBitVec.toNat
  rw [h, signedWord]
  split <;> split <;> omega

theorem signedWord_int64 (n : Int64) :
    n.toInt = signedWord 9223372036854775808 n.toUInt64.toNat := by
  have h := BitVec.toInt_eq_toNat_cond n.toBitVec
  show n.toBitVec.toInt = signedWord 9223372036854775808 n.toBitVec.toNat
  rw [h, signedWord]
  split <;> split <;> omega

end CellFilter
