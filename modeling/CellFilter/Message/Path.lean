import CellFilter.Comparator
import CellFilter.Message.Decode

/-!
# Field paths

A path names fields separated by dots and leads through nested messages to a scalar.  An absent
field yields its declared default, if it has one.  Dots in front of a name do not count.
-/

namespace CellFilter

/-- The scalar of a value that holds no other value; enumerations yield names where they can. -/
def Atom.toScalar (symbols : Option EnumType) : Atom → Scalar
  | .bool b => .bool b
  | .i32 n => .int n
  | .u32 n => .ofUInt32 n
  | .i64 n => .long n
  | .u64 n => .ofUInt64 n
  | .f32 x => .float x
  | .f64 x => .double x
  | .string s => .string s
  | .bytes b => .bytes b
  | .enumNumber n => .string (((symbols.bind fun e => e.symbol? n)).getD (toString n.toInt))

namespace Path

/-- A path without the dots in front of it. -/
def trim (path : List Char) : List Char := path.dropWhile (· == '.')

/-- The first name of a path. -/
def head (path : List Char) : List Char := (trim path).takeWhile (· != '.')

/-- What follows the first name and the dot after it. -/
def rest (path : List Char) : List Char := ((trim path).dropWhile (· != '.')).drop 1

/-- Whether a path holds nothing but dots. -/
def isBlank (path : List Char) : Bool := path.all (· == '.')

theorem rest_length {path : List Char} (h : ¬ isBlank (rest path) = true) :
    (rest path).length < path.length := by
  have h1 := (path.dropWhile_suffix (· == '.')).length_le
  have h2 := ((trim path).dropWhile_suffix (· != '.')).length_le
  have h3 : 0 < (rest path).length := by
    cases hr : rest path with
    | nil => simp [hr, isBlank] at h
    | cons c cs => simp
  simp only [rest, trim, List.length_drop] at *
  omega

/-- The scalar at the end of a path, or `none` if it is absent. -/
def extractChars (path : List Char) (m : Message) : Except FilterError (Option Scalar) :=
  match m.schema.fieldByName? (String.ofList (head path)) with
  | none => .ok none
  | some field =>
    let symbols := m.schema.enumType? field
    match m.get? field.number with
    | some (.message inner) =>
      if isBlank (rest path) then
        .error (.pathEndsOnMessage (String.ofList path) field.fullName)
      else extractChars (rest path) inner
    | some (.list _) => .error (.repeatedField field.fullName)
    | some (.atom a) => .ok (some (a.toScalar symbols))
    | none => .ok (field.default?.map fun a => a.toScalar symbols)
termination_by path.length
decreasing_by exact rest_length ‹_›

/-- The scalar at the end of a path, or `none` if it is absent. -/
def extract (path : String) (m : Message) : Except FilterError (Option Scalar) :=
  extractChars path.toList m

/-- Compares the value at the end of a path.  An absent value satisfies inequality alone.  A
comparator takes the place of the operand. -/
def compare (path : String) (operand : Option Scalar) (op : CompareOp) (m : Message)
    (comparator : Option Comparator) : Except FilterError Bool := do
  match ← extract path m with
  | none => return op == .notEqual
  | some value =>
    match comparator, operand with
    | some comparator, _ => return op.accepts (comparator.compareTo value.canonicalBytes)
    | none, some operand =>
      match value.compareTo? operand with
      | some o => return op.acceptsOrdering o
      | none => throw (.typeMismatch operand.type value.type)
    | none, none => throw (.invalidOperand (.nothingToCompareWith path))

end Path

end CellFilter
