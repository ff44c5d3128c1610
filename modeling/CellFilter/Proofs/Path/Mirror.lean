import CellFilter.Proofs.Path.Unsigned
import CellFilter.Proofs.Scalar.FloatOrder
import CellFilter.Proofs.Text.Order

/-!
# Comparators and operands

A byte comparator that holds the canonical bytes of an operand can take the place of the operand.  It
finds the same values equal, but it says where the operand stands relative to the value, and not the
other way round: where bytes are in the order of the scalars, an operator has to be exchanged for its
mirror image.  Bytes are not in that order for whole numbers of different signs, since negative
numbers have the greater bytes; there the two exchanges cancel out.

* `Scalar.Aligned`, `Scalar.Crossed`: scalars whose bytes are in their order, or in the opposite one.
* `Scalar.compare_canonicalBytes`: canonical bytes in order.
* `Comparator.binary_mirrors`: **a comparator in place of an operand**.
-/

namespace CellFilter

/-- The operator that asks the same of the two sides exchanged. -/
def CompareOp.mirror : CompareOp → CompareOp
  | .less => .greater
  | .lessOrEqual => .greaterOrEqual
  | .equal => .equal
  | .notEqual => .notEqual
  | .greaterOrEqual => .lessOrEqual
  | .greater => .less

theorem CompareOp.acceptsOrdering_swap (op : CompareOp) (r : Ordering) :
    op.acceptsOrdering r.swap = op.mirror.acceptsOrdering r := by
  cases op <;> cases r <;> rfl

namespace Scalar

/-- Scalars of one type whose bytes are in the order of the scalars: texts, byte strings and booleans,
whole numbers of equal sign, and floating-point numbers without a sign. -/
def Aligned : Scalar → Scalar → Prop
  | .string _, .string _ => True
  | .bytes _, .bytes _ => True
  | .bool _, .bool _ => True
  | .int a, .int b => a < 0 ↔ b < 0
  | .long a, .long b => a < 0 ↔ b < 0
  | .float x, .float y => x.isNegative = false ∧ y.isNegative = false
  | .double x, .double y => x.isNegative = false ∧ y.isNegative = false
  | _, _ => False

/-- Whole numbers of one type and of different signs. -/
def Crossed : Scalar → Scalar → Prop
  | .int a, .int b => ¬ (a < 0 ↔ b < 0)
  | .long a, .long b => ¬ (a < 0 ↔ b < 0)
  | _, _ => False

end Scalar

/-! ## Words -/

section Words

variable {half a b : Nat}

/-- Words in the order of whole numbers, and the other way round in that of signed numbers. -/
theorem compare_words_signed (ha : a < 2 * half) (hb : b < 2 * half) :
    (compare b a = .eq ↔ compare (signedWord half a) (signedWord half b) = .eq) ∧
    ((signedWord half a < 0 ↔ signedWord half b < 0) →
      compare b a = (compare (signedWord half a) (signedWord half b)).swap) ∧
    (¬ (signedWord half a < 0 ↔ signedWord half b < 0) →
      compare b a = compare (signedWord half a) (signedWord half b)) := by
  rw [signedWord_neg_iff ha, signedWord_neg_iff hb, not_iff_not, compare_signedWord ha hb]
  by_cases h : a < half ↔ b < half
  · rw [if_pos h, Nat.compare_eq_eq, Nat.compare_eq_eq, Nat.compare_swap]
    exact ⟨eq_comm, fun _ => rfl, fun hnot => absurd h hnot⟩
  · rw [if_neg h]
    exact ⟨Iff.rfl, fun htop => absurd htop h, fun _ => rfl⟩

theorem int32_neg_iff (n : Int32) : n < 0 ↔ n.toInt < 0 := Int32.lt_iff_toInt_lt

theorem int64_neg_iff (n : Int64) : n < 0 ↔ n.toInt < 0 := Int64.lt_iff_toInt_lt

theorem compare_word32 (a b : UInt32) :
    Bytes.compare (Bytes.bigEndian 4 a.toNat) (Bytes.bigEndian 4 b.toNat) =
      compare a.toNat b.toNat :=
  Bytes.compare_bigEndian a.toNat_lt b.toNat_lt

theorem compare_word64 (a b : UInt64) :
    Bytes.compare (Bytes.bigEndian 8 a.toNat) (Bytes.bigEndian 8 b.toNat) =
      compare a.toNat b.toNat :=
  Bytes.compare_bigEndian a.toNat_lt b.toNat_lt

variable {f : BinaryFormat}

/-- Words in the order of whole numbers, and the other way round in the total order. -/
theorem compare_words_floating (ha : a < 2 * f.signBit) (hb : b < 2 * f.signBit) :
    (compare b a = .eq ↔ compare (totalPlace f a) (totalPlace f b) = .eq) ∧
    (f.isNegative a = false ∧ f.isNegative b = false →
      compare b a = (compare (totalPlace f a) (totalPlace f b)).swap) := by
  have hplace : ∀ {n}, n < 2 * f.signBit → f.isNegative n = false → totalPlace f n = n := by
    intro n hn hsign
    have hparts := BinaryFormat.unsigned_add hn
    rw [hsign, if_neg Bool.false_ne_true, Nat.add_zero] at hparts
    rw [totalPlace, hsign, if_neg Bool.false_ne_true, hparts]
  refine ⟨?_, fun hsigns => ?_⟩
  · rw [Nat.compare_eq_eq, Int.compare_eq_eq, totalPlace_injective ha hb, eq_comm]
  · rw [hplace ha hsigns.1, hplace hb hsigns.2, Int.compare_swap]
    exact (compare_int_eq Int.ofNat_lt Int.ofNat_lt).symm

end Words

namespace Scalar

variable {v o : Scalar}

/-- **Canonical bytes in order.**  The bytes of scalars of one type are equal just if the scalars
compare equal.  They are in the order of the scalars if these are aligned, and in the opposite order
if they are crossed. -/
theorem compare_canonicalBytes (h : v.type = o.type) : ∃ r, v.compareTo? o = some r ∧
    (o.canonicalBytes.compare v.canonicalBytes = .eq ↔ r = .eq) ∧
    (v.Aligned o → o.canonicalBytes.compare v.canonicalBytes = r.swap) ∧
    (v.Crossed o → o.canonicalBytes.compare v.canonicalBytes = r) := by
  cases v <;> cases o <;> cases h
  case string.string.refl a b =>
    refine ⟨compareText a b, rfl, ?_, fun _ => ?_, False.elim⟩
    · rw [compareText, Bytes.compare_eq_eq, Bytes.compare_eq_eq, eq_comm]
      rfl
    · have hswap : compareText b a = (compareText a b).swap := Std.OrientedCmp.eq_swap
      exact hswap
  case int.int.refl a b =>
    refine ⟨compare a.toInt b.toInt, rfl, ?_⟩
    simp only [Aligned, Crossed, canonicalBytes, compare_word32, int32_neg_iff, signedWord_int32]
    exact compare_words_signed a.toUInt32.toNat_lt b.toUInt32.toNat_lt
  case long.long.refl a b =>
    refine ⟨compare a.toInt b.toInt, rfl, ?_⟩
    simp only [Aligned, Crossed, canonicalBytes, compare_word64, int64_neg_iff, signedWord_int64]
    exact compare_words_signed a.toUInt64.toNat_lt b.toUInt64.toNat_lt
  case float.float.refl x y =>
    obtain ⟨heq, haligned⟩ := compare_words_floating (f := .single) x.bits.toNat_lt y.bits.toNat_lt
    refine ⟨x.compare y, rfl, ?_⟩
    simp only [canonicalBytes, compare_word32]
    exact ⟨heq, haligned, False.elim⟩
  case double.double.refl x y =>
    obtain ⟨heq, haligned⟩ := compare_words_floating (f := .double) x.bits.toNat_lt y.bits.toNat_lt
    refine ⟨x.compare y, rfl, ?_⟩
    simp only [canonicalBytes, compare_word64]
    exact ⟨heq, haligned, False.elim⟩
  case bool.bool.refl a b =>
    cases a <;> cases b <;> exact ⟨_, rfl, by decide, fun _ => by decide, False.elim⟩
  case bytes.bytes.refl a b =>
    refine ⟨a.compare b, rfl, ?_, fun _ => ?_, False.elim⟩
    · rw [Bytes.compare_eq_eq, Bytes.compare_eq_eq, eq_comm]
      rfl
    · exact Bytes.compare_swap b a

end Scalar

/-- A value is given to a comparator, whatever the operand. -/
theorem Path.compare_of_comparator {path : String} {m : Message} {v : Scalar}
    (hv : extract path m = .ok (some v)) (comparator : Comparator) (operand : Option Scalar)
    (op : CompareOp) : compare path operand op m (some comparator) =
      .ok (op.accepts (comparator.compareTo v.canonicalBytes)) := by
  rw [compare, hv, Outcome.ok_bind]
  rfl

namespace Comparator

/-- **A comparator in place of an operand.**  Scalars of one type can be compared, and the comparator
with the bytes of the operand yields 0 for the value just if they compare equal.  For aligned scalars
its sign is the reverse of their order; and wherever a path leads to the value, an operator answers
with the comparator as its mirror image answers with the operand.  For whole numbers of different
signs the sign is that of their order, and the operator answers the same. -/
theorem binary_mirrors (v o : Scalar) (h : v.type = o.type) : ∃ r, v.compareTo? o = some r ∧
    ((binary o.canonicalBytes).compareTo v.canonicalBytes = 0 ↔ r = .eq) ∧
    (v.Aligned o → (binary o.canonicalBytes).compareTo v.canonicalBytes = orderSign r.swap ∧
      ∀ path m, Path.extract path m = .ok (some v) → ∀ operand op,
        Path.compare path operand op m (some (binary o.canonicalBytes)) =
          Path.compare path (some o) op.mirror m none) ∧
    (v.Crossed o → (binary o.canonicalBytes).compareTo v.canonicalBytes = orderSign r ∧
      ∀ path m, Path.extract path m = .ok (some v) → ∀ operand op,
        Path.compare path operand op m (some (binary o.canonicalBytes)) =
          Path.compare path (some o) op m none) := by
  obtain ⟨r, hr, hequal, haligned, hcrossed⟩ := Scalar.compare_canonicalBytes h
  have hsign : (binary o.canonicalBytes).compareTo v.canonicalBytes =
      orderSign (o.canonicalBytes.compare v.canonicalBytes) := compareTo_binary _ _
  refine ⟨r, hr, ?_, fun hbytes => ?_, fun hbytes => ?_⟩
  · rw [hsign, ← hequal]
    cases o.canonicalBytes.compare v.canonicalBytes <;> decide
  · rw [haligned hbytes] at hsign
    refine ⟨hsign, fun path m hv operand op => ?_⟩
    rw [Path.compare_of_comparator hv, Path.compare_of_ordered hv hr, hsign,
      ← CompareOp.acceptsOrdering_swap]
    rfl
  · rw [hcrossed hbytes] at hsign
    refine ⟨hsign, fun path m hv operand op => ?_⟩
    rw [Path.compare_of_comparator hv, Path.compare_of_ordered hv hr, hsign]
    rfl

/-- A number at the end of a path, with an operand of equal sign and with one of the other sign. -/
theorem binary_mirrors_probe :
    Path.extract "inner.id" Path.probeOuter = .ok (some (.long 7)) ∧
    (Scalar.long 7).Aligned (.long 9) ∧
    (binary (Scalar.long 9).canonicalBytes).compareTo (Scalar.long 7).canonicalBytes = 1 ∧
    Path.compare "inner.id" none .greater Path.probeOuter
      (some (binary (Scalar.long 9).canonicalBytes)) =
        Path.compare "inner.id" (some (.long 9)) .less Path.probeOuter none ∧
    (Scalar.long 7).Crossed (.long (-1)) ∧
    Path.compare "inner.id" none .greater Path.probeOuter
      (some (binary (Scalar.long (-1)).canonicalBytes)) =
        Path.compare "inner.id" (some (.long (-1))) .greater Path.probeOuter none := by
  have hv : Path.extract "inner.id" Path.probeOuter = .ok (some (.long 7)) := by decide +kernel
  have haligned : (Scalar.long 7).Aligned (.long 9) := by
    show (7 : Int64) < 0 ↔ (9 : Int64) < 0
    decide
  have hcrossed : (Scalar.long 7).Crossed (.long (-1)) := by
    show ¬ ((7 : Int64) < 0 ↔ (-1 : Int64) < 0)
    decide
  obtain ⟨r, hr, -, hmirror, -⟩ := binary_mirrors (.long 7) (.long 9) rfl
  obtain ⟨_, -, -, -, hsame⟩ := binary_mirrors (.long 7) (.long (-1)) rfl
  obtain rfl : .lt = r := Option.some.inj hr
  obtain ⟨hsign, hops⟩ := hmirror haligned
  exact ⟨hv, haligned, hsign, hops _ _ hv none .greater, hcrossed,
    (hsame hcrossed).2 _ _ hv none .greater⟩

end Comparator

end CellFilter
