import CellFilter.Cache.Key
import CellFilter.Comparator
import CellFilter.Message.Match
import CellFilter.Predicate.Operand

/-!
# Column predicates

A predicate is one test on the values of one column: a field of each value is compared with an
operand or by a byte comparator, or the whole value is matched with an operand message.  A predicate
names the schema of the values by its key and may carry the payload of the schema.
-/

namespace CellFilter

/-- One test on one column. -/
structure ColumnPredicate where
  family : Bytes
  qualifier : Bytes
  compareOp : CompareOp
  matchOp : MatchOp
  /-- Whether a row without the column fails. -/
  filterIfMissing : Bool
  /-- Whether the first value of the column in a row decides alone. -/
  latestVersionOnly : Bool
  path : String
  operand? : Option Operand
  key : SchemaKey
  payload? : Option Bytes
  comparator? : Option Comparator

/-- Where a predicate starts: its column, its schema and how it treats rows. -/
structure ColumnTarget where
  family : Bytes
  qualifier : Bytes
  key : SchemaKey
  payload? : Option Bytes
  filterIfMissing : Bool := false
  latestVersionOnly : Bool := true

namespace ColumnTarget

variable (target : ColumnTarget)

/-- A predicate on the column. -/
def predicate (matchOp : MatchOp) (compareOp : CompareOp) (path : String)
    (operand? : Option Operand) (comparator? : Option Comparator) : ColumnPredicate where
  family := target.family
  qualifier := target.qualifier
  compareOp
  matchOp
  filterIfMissing := target.filterIfMissing
  latestVersionOnly := target.latestVersionOnly
  path
  operand?
  key := target.key
  payload? := target.payload?
  comparator?

/-- Compares the field at a path with a value. -/
def fieldCompare (path : String) (op : CompareOp) (value : Scalar) : ColumnPredicate :=
  target.predicate .scalar op path (some (.scalar value)) none

/-- Compares the canonical bytes of the field at a path by a comparator. -/
def fieldByteComparable (path : String) (comparator : Comparator) (op : CompareOp) :
    ColumnPredicate :=
  target.predicate .scalar op path none (some comparator)

/-- Matches whole values with an encoded message. -/
def messageMatch (op : MatchOp) (encoded : Bytes) : ColumnPredicate :=
  target.predicate op .equal "" (some (.message encoded)) none

/-- Every field of the operand is equal in the value. -/
def containingFieldsMatched (encoded : Bytes) : ColumnPredicate :=
  target.messageMatch .equal encoded

/-- Some field of the operand differs in the value. -/
def containingFieldsNotMatched (encoded : Bytes) : ColumnPredicate :=
  target.messageMatch .notEqual encoded

/-- The value has the fields of the operand and no others. -/
def isEqualTo (encoded : Bytes) : ColumnPredicate := target.messageMatch .exact encoded

/-- The value has not the fields of the operand, or has others. -/
def isNotEqualTo (encoded : Bytes) : ColumnPredicate := target.messageMatch .notExact encoded

/-- Some field of the operand is equal in the value. -/
def anyFieldsMatched (encoded : Bytes) : ColumnPredicate := target.messageMatch .any encoded

/-- No field of the operand is equal in the value. -/
def noFieldsMatched (encoded : Bytes) : ColumnPredicate := target.messageMatch .none encoded

end ColumnTarget

namespace ColumnPredicate

/-- Equality of optional values by a test of values. -/
def sameOption {α : Type} (same : α → α → Bool) : Option α → Option α → Bool
  | none, none => true
  | some a, some b => same a b
  | _, _ => false

/-- Equality of predicates.  Comparators are the same when they travel the same way, and
floating-point operands are compared as numbers. -/
def valueEq (a b : ColumnPredicate) : Bool :=
  sameOption (· == ·) a.comparator? b.comparator? && a.family == b.family &&
    a.qualifier == b.qualifier && a.compareOp == b.compareOp && a.matchOp == b.matchOp &&
    a.filterIfMissing == b.filterIfMissing && a.latestVersionOnly == b.latestVersionOnly &&
    a.path == b.path && sameOption Operand.valueEq a.operand? b.operand? && a.key == b.key &&
    a.payload? == b.payload?

/-- The bytes of a comparator, after a byte that tells whether there is one. -/
def putComparator : Option Comparator → Bytes
  | none => Frame.putBool false
  | some c => Frame.putBool true ++ Frame.putText c.kind ++ Frame.putBytes c.state

/-- The bytes of an operand: an optional scalar, then an optional message. -/
def putOperand : Option Operand → Bytes
  | none => Frame.putOptional none ++ Frame.putOptional none
  | some (.scalar value) => Frame.putOptional (some value.encode) ++ Frame.putOptional none
  | some (.message encoded) => Frame.putOptional none ++ Frame.putOptional (some encoded)

/-- The bytes of a predicate. -/
def encode (p : ColumnPredicate) : Bytes :=
  Frame.putBytes p.family ++ Frame.putBytes p.qualifier ++ Frame.putByte p.compareOp.ordinal ++
    Frame.putByte p.matchOp.key ++ Frame.putBool p.filterIfMissing ++
    Frame.putBool p.latestVersionOnly ++ Frame.putText p.path ++ putOperand p.operand? ++
    Frame.putText p.key.name ++ Frame.putWide p.key.hash.value ++ Frame.putOptional p.payload? ++
    putComparator p.comparator?

/-- The operand that an optional scalar and an optional message make; not both may be there. -/
def operandOf : Option Bytes → Option Bytes → Except FilterError (Option Operand)
  | some _, some _ => .error (.invalidOperand .bothOperands)
  | some encoded, none => (Scalar.decode encoded).map fun value => some (.scalar value)
  | none, some encoded => .ok (some (.message encoded))
  | none, none => .ok none

/-- Reads a comparator. -/
def readComparator (comparators : ComparatorRegistry) : Reader (Option Comparator) := do
  if ← Frame.bool then
    let kind ← Frame.text
    let state ← Frame.bytes
    return some (← comparators.build kind state)
  else return none

/-- Reads a predicate.  An empty payload counts as none. -/
def read (comparators : ComparatorRegistry) : Reader ColumnPredicate := do
  let family ← Frame.bytes
  let qualifier ← Frame.bytes
  let compareOp ← CompareOp.ofOrdinal (← Frame.byte)
  let matchOp ← MatchOp.ofKey (← Frame.byte)
  let filterIfMissing ← Frame.bool
  let latestVersionOnly ← Frame.bool
  let path ← Frame.text
  let scalar ← Frame.optional
  let message ← Frame.optional
  let operand? ← operandOf scalar message
  let name ← Frame.text
  let hash ← Frame.wide
  let payload ← Frame.optional
  let payload? := payload.filter fun p => !p.isEmpty
  let comparator? ← readComparator comparators
  let key : SchemaKey := ⟨name, ⟨hash⟩⟩
  return { family, qualifier, compareOp, matchOp, filterIfMissing, latestVersionOnly, path,
           operand?, key, payload?, comparator? }

/-- Reads a predicate that takes up all of the bytes. -/
def decode (comparators : ComparatorRegistry) (bytes : Bytes) :
    Except FilterError ColumnPredicate :=
  Frame.whole (read comparators) .trailingAfterPredicate bytes

end ColumnPredicate

end CellFilter
