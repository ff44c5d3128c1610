import CellFilter.Message.Decode

/-!
# Matching whole messages

The present fields of an operand are compared with those of a value, field by field and by full
name.  The modes differ in how many fields have to be equal, and the exact modes also ask that the
value has no further field.
-/

namespace CellFilter

/-- How the fields of an operand are matched. -/
inductive MatchOp where
  /-- Every field of the operand is equal in the value. -/
  | equal
  /-- Some field of the operand differs in the value. -/
  | notEqual
  /-- The value has the fields of the operand and no others, all equal. -/
  | exact
  | notExact
  /-- At least one field of the operand is equal in the value. -/
  | any
  /-- No field of the operand is equal in the value. -/
  | none
  /-- A single field is compared with a scalar instead. -/
  | scalar
  deriving DecidableEq, Repr

namespace MatchOp

/-- The number of a mode on the wire. -/
def key : MatchOp → UInt8
  | .equal => 0
  | .notEqual => 1
  | .exact => 2
  | .notExact => 3
  | .any => 4
  | .none => 5
  | .scalar => 6

/-- The mode with a number. -/
def ofKey (n : UInt8) : Except FilterError MatchOp :=
  match n with
  | 0 => .ok .equal
  | 1 => .ok .notEqual
  | 2 => .ok .exact
  | 3 => .ok .notExact
  | 4 => .ok .any
  | 5 => .ok .none
  | 6 => .ok .scalar
  | other => .error (.unknownMatchOp other)

@[simp] theorem ofKey_key (op : MatchOp) : ofKey op.key = .ok op := by
  cases op <;> rfl

/-- The name of a mode. -/
def name : MatchOp → String
  | .equal => "Equal"
  | .notEqual => "NotEqual"
  | .exact => "Exact"
  | .notExact => "NotExact"
  | .any => "Any"
  | .none => "None"
  | .scalar => "Scalar"

end MatchOp

namespace Message

/-- Values by the full names of their fields; a later value takes the place of an earlier one. -/
def byFullName (fields : List (Field × Value)) : List (String × Value) :=
  fields.foldl (fun known entry =>
    known.filter (fun k => k.1 != entry.1.fullName) ++ [(entry.1.fullName, entry.2)]) []

/-- What has been seen of the operand's fields. -/
structure Tally where
  /-- The fields of the value that no field of the operand has met yet. -/
  remaining : List (String × Value)
  someEqual : Bool
  someDifferent : Bool

/-- Whether a field of the operand is equal in what remains of the value. -/
def Tally.meets (t : Tally) (field : Field) (expected : Value) : Bool :=
  match t.remaining.lookup field.fullName with
  | some actual => actual.valueEq expected
  | none => false

/-- Goes through the fields of the operand; the answer is final as soon as the mode allows. -/
def matchFields (op : MatchOp) (t : Tally) : List (Field × Value) → Bool
  | [] =>
    match op with
    | .exact | .notExact => (t.remaining.isEmpty && !t.someDifferent) == (op == .exact)
    | .none => !t.someEqual
    | _ => op == .equal
  | (field, expected) :: rest =>
    let left := t.remaining.filter fun k => k.1 != field.fullName
    if t.meets field expected then
      if op == .any then true
      else matchFields op { t with remaining := left, someEqual := true } rest
    else if op == .equal || op == .notEqual then op == .notEqual
    else matchFields op { t with remaining := left, someDifferent := true } rest

/-- Whether a value matches an operand in a mode. -/
def matchBy (op : MatchOp) (operand value : Message) : Except FilterError Bool :=
  if op == .scalar then .error .scalarMessageMatch
  else .ok (matchFields op ⟨byFullName value.presentFields, false, false⟩ operand.presentFields)

end Message

end CellFilter
