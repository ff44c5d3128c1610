import CellFilter.Predicate.Basic
import CellFilter.Proofs.Comparator.Registry
import CellFilter.Proofs.Predicate.Operand

/-!
# Predicates read back

A predicate reads back as it was written: its comparator is built anew from its kind and its state,
and everything else stands in its bytes.

* `ColumnPredicate.rebuild`: what reading a predicate comes to, with any registry of comparators.
* `ColumnPredicate.gives_encode`: the round trip of a predicate.
-/

namespace CellFilter

open Outcome

namespace ColumnPredicate

/-- An operand travels in one of two places. -/
theorem exists_operand {operand? : Option Operand}
    (h : (putOperand operand?).length < UInt64.size) :
    ∃ scalar? message? : Option Bytes,
      putOperand operand? = Frame.putOptional scalar? ++ Frame.putOptional message? ∧
      operandOf scalar? message? = .ok operand? := by
  cases operand? with
  | none => exact ⟨none, none, rfl, rfl⟩
  | some operand =>
    cases operand with
    | message encoded => exact ⟨none, some encoded, rfl, rfl⟩
    | scalar value =>
      refine ⟨some value.encode, none, rfl, ?_⟩
      have hlen : value.encode.length < UInt64.size := by
        simp only [putOperand, Frame.putOptional, Frame.putBytes, List.length_append] at h
        omega
      rw [operandOf, Scalar.decode_encode hlen]
      rfl

theorem length_optional {b : Option Bytes} (h : (Frame.putOptional b).length < UInt64.size) :
    ∀ c ∈ b, c.length < UInt64.size := by
  rintro c rfl
  simp only [Frame.putOptional, Frame.putBytes, List.length_append] at h
  omega

/-- A comparator built anew, if there is one. -/
def rebuildComparator (comparators : ComparatorRegistry) :
    Option Comparator → Except FilterError (Option Comparator)
  | none => .ok none
  | some c => (comparators.build c.kind c.state).map some

/-- A predicate as it is read back: with no empty payload, and with its comparator built anew. -/
def rebuild (comparators : ComparatorRegistry) (p : ColumnPredicate) :
    Except FilterError ColumnPredicate :=
  (rebuildComparator comparators p.comparator?).map fun comparator? =>
    { p with payload? := p.payload?.filter fun b => !b.isEmpty, comparator? }

theorem gives_comparator (comparators : ComparatorRegistry) {comparator? : Option Comparator}
    (h : (putComparator comparator?).length < UInt64.size) :
    Gives (readComparator comparators) (putComparator comparator?)
      (rebuildComparator comparators comparator?) := by
  cases comparator? with
  | none => exact (Frame.reads_bool false).andReturn fun _ => none
  | some c =>
    simp only [putComparator, Frame.putText, Frame.putBytes, List.length_append] at h
    have hkind : Reads Frame.text (Frame.putText c.kind) c.kind :=
      Frame.reads_text (by omega)
    have hstate : Reads Frame.bytes (Frame.putBytes c.state) c.state := Frame.reads_bytes (by omega)
    rw [putComparator, List.append_assoc]
    refine (Frame.reads_bool true).bind (hkind.bind (hstate.andThen ?_))
    exact .lift fun c _ => .pure (some c)

/-! ### In front of the comparator -/

/-- The bytes of a predicate in front of those of its comparator. -/
def encodeFront (p : ColumnPredicate) : Bytes :=
  Frame.putBytes p.family ++ Frame.putBytes p.qualifier ++ Frame.putByte p.compareOp.ordinal ++
    Frame.putByte p.matchOp.key ++ Frame.putBool p.filterIfMissing ++
    Frame.putBool p.latestVersionOnly ++ Frame.putText p.path ++ putOperand p.operand? ++
    Frame.putText p.key.name ++ Frame.putWide p.key.hash.value ++ Frame.putOptional p.payload?

/-- Reads what stands in front of a comparator. -/
def readFront : Reader ColumnPredicate := do
  let family ← Frame.bytes
  let qualifier ← Frame.bytes
  let compareOp ← CompareOp.ofOrdinal (← Frame.byte)
  let matchOp ← MatchOp.ofKey (← Frame.byte)
  let filterIfMissing ← Frame.bool
  let latestVersionOnly ← Frame.bool
  let path ← Frame.text
  let scalar ← Frame.optional
  let message ← Frame.optional
  let operand? ← operandOf scalar message
  let name ← Frame.text
  let hash ← Frame.wide
  let payload ← Frame.optional
  let payload? := payload.filter fun p => !p.isEmpty
  let key : SchemaKey := ⟨name, ⟨hash⟩⟩
  return { family, qualifier, compareOp, matchOp, filterIfMissing, latestVersionOnly, path,
           operand?, key, payload?, comparator? := none }

theorem encode_eq (p : ColumnPredicate) :
    p.encode = p.encodeFront ++ putComparator p.comparator? := rfl

theorem read_eq (comparators : ComparatorRegistry) : read comparators = do
    let p ← readFront
    let comparator? ← readComparator comparators
    return { p with comparator? } := by
  unfold read readFront
  simp only [bind_assoc, pure_bind]

/-- Reads what stands in front of a comparator as it comes, with an empty payload if there is one. -/
def readFrontWritten : Reader ColumnPredicate := do
  let family ← Frame.bytes
  let qualifier ← Frame.bytes
  let compareOp ← CompareOp.ofOrdinal (← Frame.byte)
  let matchOp ← MatchOp.ofKey (← Frame.byte)
  let filterIfMissing ← Frame.bool
  let latestVersionOnly ← Frame.bool
  let path ← Frame.text
  let scalar ← Frame.optional
  let message ← Frame.optional
  let operand? ← operandOf scalar message
  let name ← Frame.text
  let hash ← Frame.wide
  let payload? ← Frame.optional
  let key : SchemaKey := ⟨name, ⟨hash⟩⟩
  return { family, qualifier, compareOp, matchOp, filterIfMissing, latestVersionOnly, path,
           operand?, key, payload?, comparator? := none }

theorem readFront_eq : readFront = do
    let p ← readFrontWritten
    return { p with payload? := p.payload?.filter fun b => !b.isEmpty } := by
  unfold readFront readFrontWritten
  simp only [bind_assoc, pure_bind]

/-- What stands in front of the comparator reads back. -/
theorem reads_frontWritten {p : ColumnPredicate} (h : p.encodeFront.length < UInt64.size) :
    Reads readFrontWritten p.encodeFront { p with comparator? := none } := by
  obtain ⟨family, qualifier, compareOp, matchOp, filterIfMissing, latestVersionOnly, path, operand?,
    ⟨name, ⟨hash⟩⟩, payload?, comparator?⟩ := p
  simp only [encodeFront, List.length_append] at h
  have hoperand? : (putOperand operand?).length < UInt64.size := by omega
  obtain ⟨scalar?, message?, hput, hoperand⟩ := exists_operand hoperand?
  rw [hput, List.length_append] at h
  have hfamily : Reads Frame.bytes (Frame.putBytes family) family :=
    Frame.reads_putBytes (by omega)
  have hqualifier : Reads Frame.bytes (Frame.putBytes qualifier) qualifier :=
    Frame.reads_putBytes (by omega)
  have hpath : Reads Frame.text (Frame.putText path) path :=
    Frame.reads_putText (by omega)
  have hname : Reads Frame.text (Frame.putText name) name :=
    Frame.reads_putText (by omega)
  have hscalar : Reads Frame.optional (Frame.putOptional scalar?) scalar? :=
    Frame.reads_optional (length_optional (by omega))
  have hmessage : Reads Frame.optional (Frame.putOptional message?) message? :=
    Frame.reads_optional (length_optional (by omega))
  have hpayload : Reads Frame.optional (Frame.putOptional payload?) payload? :=
    Frame.reads_optional (length_optional (by omega))
  unfold readFrontWritten
  simp only [encodeFront, List.append_assoc, hput]
  refine hfamily.bind (hqualifier.bind ((Frame.reads_byte _).bind ?_))
  refine .given (CompareOp.ofOrdinal_ordinal compareOp) ((Frame.reads_byte _).bind ?_)
  refine .given (MatchOp.ofKey_key matchOp) ((Frame.reads_bool _).bind ?_)
  refine (Frame.reads_bool _).bind (hpath.bind (hscalar.bind (hmessage.bind ?_)))
  refine .given hoperand (hname.bind ((Frame.reads_wide _).bind ?_))
  exact hpayload.andReturn _

/-- An empty payload reads back as none. -/
theorem reads_front {p : ColumnPredicate} (h : p.encodeFront.length < UInt64.size) :
    Reads readFront p.encodeFront
      { p with payload? := p.payload?.filter fun b => !b.isEmpty, comparator? := none } := by
  rw [readFront_eq]
  exact (reads_frontWritten h).andReturn _

/-- **A predicate** reads back, as far as its comparator can be built. -/
theorem gives_encode (comparators : ComparatorRegistry) {p : ColumnPredicate}
    (h : p.encode.length < UInt64.size) :
    Gives (read comparators) p.encode (p.rebuild comparators) := by
  rw [encode_eq, List.length_append] at h
  have hfront := @reads_front p (by omega)
  have hcomparator := @gives_comparator comparators p.comparator? (by omega)
  rw [read_eq, encode_eq]
  exact hfront.bind (hcomparator.andReturn _)

/-- The registry builds a comparator of the same kind and with the same state as that of the
predicate. -/
def Rebuildable (comparators : ComparatorRegistry) (p : ColumnPredicate) : Prop :=
  ∀ c ∈ p.comparator?, comparators.Rebuilds c

/-- Two predicates that differ in nothing but comparators of the same kind and state. -/
structure Same (p q : ColumnPredicate) : Prop where
  rest : q = { p with comparator? := q.comparator? }
  comparator : sameOption (· == ·) p.comparator? q.comparator? = true

variable {comparators : ComparatorRegistry} {p q : ColumnPredicate}

theorem Rebuildable.exists_comparator (h : p.Rebuildable comparators) :
    ∃ c?, rebuildComparator comparators p.comparator? = .ok c? ∧
      sameOption (· == ·) p.comparator? c? = true := by
  cases hp : p.comparator? with
  | none => exact ⟨none, rfl, rfl⟩
  | some c =>
    obtain ⟨c', hbuild, hkind, hstate⟩ := h c hp
    refine ⟨some c', by rw [rebuildComparator, hbuild, map_ok], ?_⟩
    show (c.kind == c'.kind && c.state == c'.state) = true
    rw [hkind, hstate, beq_self_eq_true, beq_self_eq_true, Bool.and_self]

/-- Comparators as they are made are built anew by the standard registry. -/
theorem rebuildComparator_standard {comparator? : Option Comparator}
    (h : ∀ c ∈ comparator?, c.Standard) :
    rebuildComparator .standard comparator? = .ok comparator? := by
  cases comparator? with
  | none => rfl
  | some c => rw [rebuildComparator, ComparatorRegistry.build_standard (h c rfl), map_ok]

theorem rebuildable_of_none (h : p.comparator? = none) : p.Rebuildable comparators := fun c hc => by
  rw [h] at hc
  cases hc

theorem rebuildable_standard (h : ∀ c ∈ p.comparator?, c.Standard) : p.Rebuildable .standard :=
  fun c hc => ComparatorRegistry.rebuilds_standard (h c hc)

end ColumnPredicate

end CellFilter
