import CellFilter.Proofs.Scalar.Words

/-!
# The order of floating-point numbers

Floating-point scalars are compared by a total order of their words.  Equal are only the same words:
the zeros differ, and a NaN is equal to itself.  A NaN without a sign stands above all numbers, the
infinities included.  But the order of words turns round below zero, so that a NaN with a sign stands
below all numbers.

* `BinaryFormat.magnitude_eq_nan`: the NaNs are the words beyond infinity.
* `totalPlace_injective`, `totalPlace_nan`: words on the line, and where the NaNs are on it.
* `Scalar.floats_totallyOrdered`: **the order of floating-point scalars** and its NaNs.
* `Scalar.nan_below_numbers`: a NaN below minus infinity.
-/

namespace CellFilter

/-! ## Words of a format -/

namespace BinaryFormat

variable {f : BinaryFormat} {a b : Nat}

/-- The fields of a format fill its words: one bit for the sign, the others for exponent and
fraction. -/
def IsFilled (f : BinaryFormat) : Prop :=
  f.signBit = (f.specialExponent + 1) * f.hiddenBit ∧ 0 < f.hiddenBit

theorem isFilled_single : single.IsFilled := ⟨by decide, by decide⟩

theorem isFilled_double : double.IsFilled := ⟨by decide, by decide⟩

theorem unsigned_lt (hf : f.IsFilled) (a : Nat) : f.unsigned a < f.signBit := by
  refine Nat.mod_lt _ ?_
  rw [hf.1]
  exact Nat.mul_pos (Nat.succ_pos _) hf.2

/-- A word is its unsigned part, and the sign bit if it has a sign. -/
theorem unsigned_add (h : a < 2 * f.signBit) :
    f.unsigned a + (if f.isNegative a then f.signBit else 0) = a := by
  unfold unsigned isNegative
  by_cases hsign : f.signBit ≤ a
  · rw [if_pos (decide_eq_true hsign), Nat.mod_eq_sub_mod hsign, Nat.mod_eq_of_lt (by omega)]
    omega
  · rw [if_neg (by simpa using hsign), Nat.mod_eq_of_lt (by omega), Nat.add_zero]

/-- **NaNs** are the words beyond infinity. -/
theorem magnitude_eq_nan (hf : f.IsFilled) :
    f.magnitude a = .nan ↔ f.infinity < f.unsigned a := by
  have hlt := unsigned_lt hf a
  rw [hf.1] at hlt
  have hle : f.unsigned a / f.hiddenBit ≤ f.specialExponent :=
    Nat.le_of_lt_succ (Nat.div_lt_of_lt_mul (by rwa [Nat.mul_comm] at hlt))
  have hparts := Nat.div_add_mod (f.unsigned a) f.hiddenBit
  unfold magnitude infinity
  rw [Nat.mul_comm] at hparts
  by_cases hspecial : f.unsigned a / f.hiddenBit = f.specialExponent
  · rw [hspecial] at hparts
    rw [if_pos hspecial]
    split_ifs with hzero
    · simp only [false_iff]
      omega
    · simp only [true_iff]
      omega
  · have hless : (f.unsigned a / f.hiddenBit + 1) * f.hiddenBit ≤ f.specialExponent * f.hiddenBit :=
      Nat.mul_le_mul_right _ (Nat.lt_of_le_of_ne hle hspecial)
    have hmod := Nat.mod_lt (f.unsigned a) hf.2
    rw [Nat.succ_mul] at hless
    rw [if_neg hspecial]
    split_ifs <;> simp only [false_iff] <;> omega

end BinaryFormat

section Line

variable {f : BinaryFormat} {a b : Nat}

theorem totalPlace_injective (ha : a < 2 * f.signBit) (hb : b < 2 * f.signBit) :
    totalPlace f a = totalPlace f b ↔ a = b := by
  refine ⟨fun h => ?_, fun h => h ▸ rfl⟩
  have hleft := BinaryFormat.unsigned_add ha
  have hright := BinaryFormat.unsigned_add hb
  unfold totalPlace at h
  split_ifs at h <;> simp_all <;> omega

/-- A NaN stands above all numbers, or below all of them if it has a sign. -/
theorem totalPlace_nan (ha : f.infinity < f.unsigned a) (hb : f.unsigned b ≤ f.infinity) :
    if f.isNegative a then totalPlace f a < totalPlace f b else totalPlace f b < totalPlace f a := by
  unfold totalPlace
  split_ifs <;> omega

end Line

/-! ## Floating-point scalars -/

/-- The format of a floating-point type. -/
def ScalarType.format? : ScalarType → Option BinaryFormat
  | .float => some .single
  | .double => some .double
  | _ => none

namespace Scalar

/-- The word of a floating-point scalar. -/
def word : Scalar → Nat
  | .float x => x.bits.toNat
  | .double x => x.bits.toNat
  | _ => 0

/-- Whether a scalar is a NaN, of whatever sign and payload. -/
def isNaN : Scalar → Bool
  | .float x => x.magnitude == .nan
  | .double x => x.magnitude == .nan
  | _ => false

/-- Whether a scalar is a floating-point number with its sign bit set. -/
def isNegative : Scalar → Bool
  | .float x => x.isNegative
  | .double x => x.isNegative
  | _ => false

/-- A value stands at an operand or below it. -/
def AtMost (v o : Scalar) : Prop := ∃ r, v.compareTo? o = some r ∧ r.isLE = true

section Format

variable {f : BinaryFormat} {v o : Scalar}

theorem isFilled_of_format {t : ScalarType} (h : t.format? = some f) : f.IsFilled := by
  cases t <;> cases h
  · exact BinaryFormat.isFilled_single
  · exact BinaryFormat.isFilled_double

theorem word_lt (h : v.type.format? = some f) : v.word < 2 * f.signBit := by
  cases v <;> cases h
  case float x => exact x.bits.toNat_lt
  case double x => exact x.bits.toNat_lt

theorem word_injective (hv : v.type.format? = some f) (h : o.type = v.type) :
    v.word = o.word ↔ v = o := by
  refine ⟨fun hword => ?_, fun h => h ▸ rfl⟩
  cases v <;> cases hv <;> cases o <;> cases h
  case float.refl.float.refl x y =>
    exact congrArg (Scalar.float ∘ Binary32.mk) (UInt32.toNat_inj.mp hword)
  case double.refl.double.refl x y =>
    exact congrArg (Scalar.double ∘ Binary64.mk) (UInt64.toNat_inj.mp hword)

theorem compareTo?_floating (hv : v.type.format? = some f) (h : o.type = v.type) :
    v.compareTo? o = some (compare (totalPlace f v.word) (totalPlace f o.word)) := by
  cases v <;> cases hv <;> cases o <;> cases h <;> rfl

theorem isNegative_eq (hv : v.type.format? = some f) : v.isNegative = f.isNegative v.word := by
  cases v <;> cases hv <;> rfl

theorem isNaN_eq (hv : v.type.format? = some f) :
    v.isNaN = decide (f.infinity < f.unsigned v.word) := by
  have hnan : v.isNaN = (f.magnitude v.word == .nan) := by cases v <;> cases hv <;> rfl
  rw [hnan, Bool.eq_iff_iff, beq_iff_eq, decide_eq_true_iff,
    BinaryFormat.magnitude_eq_nan (isFilled_of_format hv)]

end Format

/-- **The order of floating-point scalars.**  Scalars of one floating-point type can always be
compared; the other way round the answer turns round, and only the same words are equal.  The order
is transitive.  A NaN stands above everything that is none just if its sign bit is not set, and below
all of it if the bit is set. -/
theorem floats_totallyOrdered (t : ScalarType) (ht : t = .float ∨ t = .double) :
    (∀ v o : Scalar, v.type = t → o.type = t → ∃ r, v.compareTo? o = some r ∧
      o.compareTo? v = some r.swap ∧ (r = .eq ↔ v = o)) ∧
    (∀ u v w : Scalar, u.type = t → v.type = t → w.type = t →
      u.AtMost v → v.AtMost w → u.AtMost w) ∧
    ∀ v o : Scalar, v.type = t → o.type = t → v.isNaN = true → o.isNaN = false →
      v.compareTo? o = some (if v.isNegative then .lt else .gt) ∧
      o.compareTo? v = some (if v.isNegative then .gt else .lt) := by
  obtain ⟨f, hf⟩ : ∃ f, t.format? = some f := by
    rcases ht with rfl | rfl <;> exact ⟨_, rfl⟩
  have hcompare : ∀ v o : Scalar, v.type = t → o.type = t →
      v.compareTo? o = some (compare (totalPlace f v.word) (totalPlace f o.word)) :=
    fun v o hv ho => compareTo?_floating (hv ▸ hf) (ho.trans hv.symm)
  refine ⟨fun v o hv ho => ?_, fun u v w hu hv hw huv hvw => ?_, fun v o hv ho hnan hnumber => ?_⟩
  · refine ⟨_, hcompare v o hv ho, ?_, ?_⟩
    · rw [hcompare o v ho hv, Int.compare_swap]
    · have hplaces := totalPlace_injective (word_lt (hv.symm ▸ hf)) (word_lt (ho.symm ▸ hf))
      rw [Int.compare_eq_eq, hplaces, word_injective (hv ▸ hf) (ho.trans hv.symm)]
  · obtain ⟨r, hr, hle⟩ := huv
    obtain ⟨r', hr', hle'⟩ := hvw
    rw [hcompare u v hu hv, Option.some.injEq] at hr
    rw [hcompare v w hv hw, Option.some.injEq] at hr'
    subst hr hr'
    exact ⟨_, hcompare u w hu hw, Std.TransCmp.isLE_trans hle hle'⟩
  · rw [isNaN_eq (hv ▸ hf), decide_eq_true_iff] at hnan
    rw [isNaN_eq (ho ▸ hf), decide_eq_false_iff_not, Nat.not_lt] at hnumber
    have hplace := totalPlace_nan hnan hnumber
    rw [hcompare v o hv ho, hcompare o v ho hv, isNegative_eq (hv ▸ hf)]
    cases hsign : f.isNegative v.word with
    | true =>
      rw [hsign, if_pos rfl] at hplace
      exact ⟨congrArg some (Int.compare_eq_lt.mpr hplace), congrArg some (Int.compare_eq_gt.mpr hplace)⟩
    | false =>
      rw [hsign, if_neg Bool.false_ne_true] at hplace
      exact ⟨congrArg some (Int.compare_eq_gt.mpr hplace), congrArg some (Int.compare_eq_lt.mpr hplace)⟩

/-- Doubles: a NaN above infinity, one with a sign below minus infinity, and the two zeros between
both infinities. -/
theorem floats_totallyOrdered_double :
    (double ⟨0x7FF8000000000001⟩).compareTo? (.double ⟨0x7FF0000000000000⟩) = some .gt ∧
    (double ⟨0xFFF8000000000000⟩).compareTo? (.double ⟨0xFFF0000000000000⟩) = some .lt ∧
    (double ⟨0xFFF0000000000000⟩).AtMost (.double ⟨0x7FF0000000000000⟩) ∧
    ∃ r, (double ⟨0x8000000000000000⟩).compareTo? (.double ⟨0⟩) = some r ∧
      (double ⟨0⟩).compareTo? (.double ⟨0x8000000000000000⟩) = some r.swap ∧ r ≠ .eq := by
  obtain ⟨hanswer, htrans, hnan⟩ := floats_totallyOrdered .double (.inr rfl)
  obtain ⟨r, hr, hswap, heq⟩ := hanswer (.double ⟨0x8000000000000000⟩) (.double ⟨0⟩) rfl rfl
  exact ⟨(hnan _ _ rfl rfl (by decide) (by decide)).1, (hnan _ _ rfl rfl (by decide) (by decide)).1,
    htrans _ (.double ⟨0⟩) _ rfl rfl rfl ⟨.lt, by decide, rfl⟩ ⟨.lt, by decide, rfl⟩,
    r, hr, hswap, fun h => absurd (heq.mp h) (by decide)⟩

/-- A NaN with a sign, as a division of zero by zero yields it on common machines, stands below minus
infinity, for floats and for doubles. -/
theorem nan_below_numbers :
    (float ⟨0xFFC00000⟩).isNaN = true ∧ (float ⟨0xFF800000⟩).isNaN = false ∧
    (float ⟨0xFFC00000⟩).compareTo? (.float ⟨0xFF800000⟩) = some .lt ∧
    (float ⟨0xFF800000⟩).compareTo? (.float ⟨0xFFC00000⟩) = some .gt ∧
    (double ⟨0xFFF8000000000000⟩).isNaN = true ∧ (double ⟨0xFFF0000000000000⟩).isNaN = false ∧
    (double ⟨0xFFF8000000000000⟩).compareTo? (.double ⟨0xFFF0000000000000⟩) = some .lt := by
  decide

end Scalar

end CellFilter
