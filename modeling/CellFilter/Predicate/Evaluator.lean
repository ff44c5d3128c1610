import CellFilter.Cache.Basic
import CellFilter.Message.Path
import CellFilter.Predicate.Basic

/-!
# Evaluating a predicate over a row

A test is a predicate whose schema was found and whose operand is known to suit it; it decides on
one value at a time.  Over a row, a test has a state: whether the column was met and whether a value
matched.  Once a value matched, nothing more changes; and if the first value is to decide alone,
nothing changes after one that did not match either.
-/

namespace CellFilter

/-- What a host does after a value. -/
inductive ReturnCode where
  /-- Keep the value and go on. -/
  | include
  /-- Keep the value and read no more of the row. -/
  | includeAndStopRow
  /-- Leave the rest of the row. -/
  | skipRow
  deriving DecidableEq, Repr

/-- How far a row got with a test. -/
inductive RowState where
  | notFound
  | unmatched
  | matched
  deriving DecidableEq, Repr

/-- A value in a column of a row. -/
structure Cell where
  family : Bytes
  qualifier : Bytes
  value : Bytes

/-- What a test looks for. -/
inductive Wanted where
  /-- A field that compares as asked with the operand or by the comparator of the predicate. -/
  | field (operand? : Option Scalar)
  /-- A value that matches a message. -/
  | message (operand : Message)

/-- A predicate ready to be tried on values. -/
structure ColumnTest where
  predicate : ColumnPredicate
  schema : Schema
  wanted : Wanted

namespace ColumnPredicate

/-- What a predicate looks for in values of a schema, if its operand suits its mode. -/
def wantedIn (p : ColumnPredicate) (schema : Schema) : Except FilterError Wanted :=
  match p.matchOp, p.operand? with
  | .scalar, some (.message _) => .error (.invalidOperand .messageForScalarMatch)
  | .scalar, some (.scalar value) => .ok (.field (some value))
  | .scalar, none =>
    if p.comparator?.isNone then .error (.invalidOperand (.nothingToCompareWith p.path))
    else .ok (.field none)
  | _, some (.message encoded) => (Message.decode schema encoded).map .message
  | op, _ => .error (.invalidOperand (.messageRequired op.name))

/-- Finds the schema of a predicate in a cache, or rebuilds it, and makes the predicate ready. -/
def test (p : ColumnPredicate) : WithCache ColumnTest := do
  let handle ← SchemaCache.resolve p.key p.payload?
  let wanted ← p.wantedIn handle.schema
  return ⟨p, handle.schema, wanted⟩

end ColumnPredicate

namespace ColumnTest

variable (test : ColumnTest)

/-- Whether a value passes. -/
def accepts (value : Bytes) : Except FilterError Bool := do
  let message ← Message.decode test.schema value
  match test.wanted with
  | .field operand? =>
    Path.compare test.predicate.path operand? test.predicate.compareOp message
      test.predicate.comparator?
  | .message operand => Message.matchBy test.predicate.matchOp operand message

/-- Whether a cell lies in the column of the test. -/
def concerns (cell : Cell) : Bool :=
  cell.family == test.predicate.family && cell.qualifier == test.predicate.qualifier

/-- The code after a value that did not match. -/
def missCode : ReturnCode :=
  if test.predicate.latestVersionOnly then .skipRow else .include

/-- Whether the state can no longer change. -/
def isSettled (state : RowState) : Bool :=
  match state with
  | .matched => true
  | .unmatched => test.predicate.latestVersionOnly
  | .notFound => false

/-- The code for a state that a value has led to or left as it is. -/
def codeFor (state : RowState) : ReturnCode :=
  match state with
  | .unmatched => test.missCode
  | _ => .include

/-- Takes a cell of a row; an error leaves the state as it is. -/
def onValue (state : RowState) (cell : Cell) : Except FilterError (ReturnCode × RowState) := do
  if test.isSettled state then return (test.codeFor state, state)
  else if !test.concerns cell then return (.include, state)
  else if ← test.accepts cell.value then return (.include, .matched)
  else return (test.missCode, .unmatched)

/-- Whether a row that got this far passes. -/
def verdict (state : RowState) : Bool :=
  match state with
  | .matched => true
  | .unmatched => false
  | .notFound => !test.predicate.filterIfMissing

end ColumnTest

end CellFilter
