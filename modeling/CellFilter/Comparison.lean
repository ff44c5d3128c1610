import CellFilter.Error

/-!
# Comparison operators

An operator turns the place of a value relative to an operand into a verdict.  Operators travel as
ordinals.
-/

namespace CellFilter

/-- How an ordering is turned into a verdict. -/
inductive CompareOp where
  | less
  | lessOrEqual
  | equal
  | notEqual
  | greaterOrEqual
  | greater
  deriving DecidableEq, Repr

/-- The sign of an ordering. -/
def orderSign : Ordering → Int
  | .lt => -1
  | .eq => 0
  | .gt => 1

namespace CompareOp

/-- All operators in the order of their ordinals. -/
def all : List CompareOp := [.less, .lessOrEqual, .equal, .notEqual, .greaterOrEqual, .greater]

/-- The number of an operator on the wire. -/
def ordinal : CompareOp → UInt8
  | .less => 0
  | .lessOrEqual => 1
  | .equal => 2
  | .notEqual => 3
  | .greaterOrEqual => 4
  | .greater => 5

/-- The operator with a number. -/
def ofOrdinal (n : UInt8) : Except FilterError CompareOp :=
  match all[n.toNat]? with
  | some op => .ok op
  | none => .error (.unknownCompareOp n)

@[simp] theorem ofOrdinal_ordinal (op : CompareOp) : ofOrdinal op.ordinal = .ok op := by
  cases op <;> rfl

/-- The name of an operator. -/
def name : CompareOp → String
  | .less => "Less"
  | .lessOrEqual => "LessOrEqual"
  | .equal => "Equal"
  | .notEqual => "NotEqual"
  | .greaterOrEqual => "GreaterOrEqual"
  | .greater => "Greater"

/-- Whether the operator accepts a signed comparison result. -/
def accepts (op : CompareOp) (result : Int) : Bool :=
  match op with
  | .less => decide (result < 0)
  | .lessOrEqual => decide (result ≤ 0)
  | .equal => decide (result = 0)
  | .notEqual => decide (result ≠ 0)
  | .greaterOrEqual => decide (0 ≤ result)
  | .greater => decide (0 < result)

/-- Whether the operator accepts an ordering. -/
def acceptsOrdering (op : CompareOp) (o : Ordering) : Bool := op.accepts (orderSign o)

end CompareOp

end CellFilter
