import CellFilter.Proofs.Path.Names
import CellFilter.Proofs.Scalar.Words

/-!
# Comparing unsigned fields

Values and operands of unsigned types are read as the signed numbers of the same words before they
are compared.  Equality does not notice.  The order is that of the unsigned numbers as long as the
top bits of both agree; a number with the top bit set counts as less than all numbers without it.

* `CompareOp.relates`: the relation that an operator stands for.
* `Path.extract_of_value`: what is read where a path leads to a value.
* `Path.compare_unsigned`: **an unsigned field and an unsigned operand**.
* `Path.compare_topBit`: great numbers that are not found greater than one.
-/

namespace CellFilter

namespace CompareOp

/-- The relation between two numbers that an operator stands for. -/
def relates : CompareOp → Nat → Nat → Bool
  | .less, a, b => decide (a < b)
  | .lessOrEqual, a, b => decide (a ≤ b)
  | .equal, a, b => decide (a = b)
  | .notEqual, a, b => decide (a ≠ b)
  | .greaterOrEqual, a, b => decide (b ≤ a)
  | .greater, a, b => decide (b < a)

/-- Whether an operator tells equal from different and nothing else. -/
def isEquality : CompareOp → Bool
  | .equal | .notEqual => true
  | _ => false

theorem acceptsOrdering_compare (op : CompareOp) (a b : Nat) :
    op.acceptsOrdering (compare a b) = op.relates a b := by
  rcases Nat.lt_trichotomy a b with h | h | h
  · rw [Nat.compare_eq_lt.mpr h]
    cases op <;> simp [acceptsOrdering, accepts, orderSign, relates] <;> omega
  · rw [Nat.compare_eq_eq.mpr h]
    cases op <;> simp [acceptsOrdering, accepts, orderSign, relates] <;> omega
  · rw [Nat.compare_eq_gt.mpr h]
    cases op <;> simp [acceptsOrdering, accepts, orderSign, relates] <;> omega

theorem relates_comm {op : CompareOp} (h : op.isEquality = true) (a b : Nat) :
    op.relates a b = op.relates b a := by
  cases op <;> simp_all [isEquality, relates, eq_comm]

/-- Signed comparison of words, told in unsigned numbers. -/
theorem acceptsOrdering_signedWord (op : CompareOp) {half a b : Nat} (ha : a < 2 * half)
    (hb : b < 2 * half) :
    op.acceptsOrdering (compare (signedWord half a) (signedWord half b)) =
      if (a < half ↔ b < half) ∨ op.isEquality = true then op.relates a b else op.relates b a := by
  rw [compare_signedWord ha hb]
  by_cases htop : a < half ↔ b < half
  · rw [if_pos htop, if_pos (.inl htop), acceptsOrdering_compare]
  · rw [if_neg htop, acceptsOrdering_compare]
    by_cases hop : op.isEquality = true
    · rw [if_pos (.inr hop), relates_comm hop]
    · rw [if_neg (not_or.mpr ⟨htop, hop⟩)]

end CompareOp

namespace Path

variable {path : String} {m : Message} {s : Schema} {f : Field} {a : Atom} {v o : Scalar}
  {r : Ordering}

/-- What is read where a path leads to a value. -/
theorem extract_of_value (h : place m (names path) = .value s f a) :
    extract path m = .ok (some (a.toScalar (s.enumType? f))) := by
  have hreads := extractChars_eq_reading path.toList m fun hblank => by
    rw [names, isBlank_iff.mp hblank] at h
    cases h
  rw [show place m (segments path.toList) = _ from h] at hreads
  rw [extract]
  cases hx : extractChars path.toList m with
  | error e =>
    rw [hx] at hreads
    cases hreads
  | ok x =>
    rw [hx] at hreads
    exact hreads

/-- A value is compared with an operand of its type, if there is no comparator. -/
theorem compare_of_ordered (hv : extract path m = .ok (some v)) (hr : v.compareTo? o = some r)
    (op : CompareOp) : compare path (some o) op m none = .ok (op.acceptsOrdering r) := by
  rw [compare, hv, Outcome.ok_bind]
  dsimp only
  rw [hr]
  rfl

/-- **An unsigned field and an unsigned operand.**  A path leads to the value of an unsigned field of 32
or 64 bits, be it present or the default.  Compared with an operand of the same type, an operator
answers by the unsigned numbers if it asks for equality only or if the top bits of both agree; and if
they differ, an operator that asks for an order answers with the two sides exchanged. -/
theorem compare_unsigned (path : String) (m : Message) (s : Schema) (f : Field) (op : CompareOp) :
    (∀ v o : UInt32, place m (names path) = .value s f (.u32 v) →
      compare path (some (.ofUInt32 o)) op m none =
        .ok (if (v < 0x80000000 ↔ o < 0x80000000) ∨ op.isEquality = true then
          op.relates v.toNat o.toNat else op.relates o.toNat v.toNat)) ∧
    ∀ v o : UInt64, place m (names path) = .value s f (.u64 v) →
      compare path (some (.ofUInt64 o)) op m none =
        .ok (if (v < 0x8000000000000000 ↔ o < 0x8000000000000000) ∨ op.isEquality = true then
          op.relates v.toNat o.toNat else op.relates o.toNat v.toNat) := by
  refine ⟨fun v o h => ?_, fun v o h => ?_⟩
  · rw [compare_of_ordered (extract_of_value h) (o := .ofUInt32 o) rfl, signedWord_int32,
      signedWord_int32, UInt32.toUInt32_toInt32, UInt32.toUInt32_toInt32,
      CompareOp.acceptsOrdering_signedWord op v.toNat_lt o.toNat_lt]
    rfl
  · rw [compare_of_ordered (extract_of_value h) (o := .ofUInt64 o) rfl, signedWord_int64,
      signedWord_int64, UInt64.toUInt64_toInt64, UInt64.toUInt64_toInt64,
      CompareOp.acceptsOrdering_signedWord op v.toNat_lt o.toNat_lt]
    rfl

/-- A unit with a message that has a count, and a total that is greatest by default. -/
def meterUnit : FileDescriptor where
  name? := some "meter.proto"
  package? := some "demo"
  dependencies := []
  messages := [⟨some "Meter",
    [⟨some "count", none, some 1, some 1, some 13, none, none, []⟩,
      ⟨some "total", none, some 2, some 1, some 6, none, some "18446744073709551615", []⟩],
    [], [], []⟩]
  enums := []
  carried := []

/-- The pool of the unit. -/
def meterPool : SchemaPool where
  files := [meterUnit]
  messages := [⟨"demo.Meter", 0, [0],
    [⟨"count", "demo.Meter.count", 1, .uint32, false, none⟩,
      ⟨"total", "demo.Meter.total", 2, .fixed64, false, some (.u64 18446744073709551615)⟩]⟩]
  enums := []
  types := [("demo.Meter", .message 0)]

/-- The message of the unit. -/
def meterSchema : Schema := ⟨meterPool, 0, Nat.one_pos⟩

theorem meterPool_reachable : meterPool.Reachable :=
  .add .empty (show SchemaPool.empty.addFile meterUnit = .ok meterPool by rfl)

/-- A count with the top bit set. -/
def meterReading : Message := ⟨meterSchema, [(1, .atom (.u32 2147483648))]⟩

/-- The declaration of the count. -/
def countField : Field := ⟨"count", "demo.Meter.count", 1, .uint32, false, none⟩

/-- The declaration of the total. -/
def totalField : Field :=
  ⟨"total", "demo.Meter.total", 2, .fixed64, false, some (.u64 18446744073709551615)⟩

theorem place_count :
    place meterReading (names "count") = .value meterSchema countField (.u32 2147483648) := by
  rfl

theorem place_total :
    place meterReading (names "total") =
      .value meterSchema totalField (.u64 18446744073709551615) := by
  rfl

/-- A count that is present, below a greater one with the top bit set as well, and a total by default,
which differs from one. -/
theorem compare_unsigned_meter :
    meterPool.Reachable ∧
    Message.decode meterSchema [8, 128, 128, 128, 128, 8] = .ok meterReading ∧
    place meterReading (names "count") = .value meterSchema countField (.u32 2147483648) ∧
    compare "count" (some (.ofUInt32 2147483649)) .less meterReading none = .ok true ∧
    place meterReading (names "total") =
      .value meterSchema totalField (.u64 18446744073709551615) ∧
    compare "total" (some (.ofUInt64 1)) .notEqual meterReading none = .ok true :=
  ⟨meterPool_reachable, rfl, place_count,
    (compare_unsigned "count" meterReading meterSchema countField .less).1 _ 2147483649 place_count,
    place_total,
    (compare_unsigned "total" meterReading meterSchema totalField .notEqual).2 _ 1 place_total⟩

/-- A present count and a total by default are greater than one, but are not found to be. -/
theorem compare_topBit :
    meterPool.Reachable ∧
    Message.decode meterSchema [8, 128, 128, 128, 128, 8] = .ok meterReading ∧
    place meterReading (names "count") = .value meterSchema countField (.u32 2147483648) ∧
    CompareOp.greater.relates (2147483648 : UInt32).toNat (1 : UInt32).toNat = true ∧
    compare "count" (some (.ofUInt32 1)) .greater meterReading none = .ok false ∧
    place meterReading (names "total") =
      .value meterSchema totalField (.u64 18446744073709551615) ∧
    CompareOp.greater.relates (18446744073709551615 : UInt64).toNat (1 : UInt64).toNat = true ∧
    compare "total" (some (.ofUInt64 1)) .greater meterReading none = .ok false :=
  ⟨meterPool_reachable, rfl, place_count, rfl, by decide +kernel, place_total, rfl, by decide +kernel⟩

end Path

end CellFilter
