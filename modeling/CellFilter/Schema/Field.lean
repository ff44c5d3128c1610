import CellFilter.Error

/-!
# Fields of a schema

A field whose type has been resolved: its number, its kind, whether it is repeated and the value
that it was declared to have when it is absent.
-/

namespace CellFilter

/-- A value that holds no other value. -/
inductive Atom where
  | bool (b : Bool)
  | i32 (n : Int32)
  | i64 (n : Int64)
  | u32 (n : UInt32)
  | u64 (n : UInt64)
  | f32 (x : Binary32)
  | f64 (x : Binary64)
  | string (s : String)
  | bytes (b : Bytes)
  /-- A number of an enumeration, whether it has a name or not. -/
  | enumNumber (n : Int32)
  deriving DecidableEq, Repr

namespace Atom

/-- Equality of values, under which a floating-point NaN differs from itself. -/
def valueEq : Atom → Atom → Bool
  | .bool a, .bool b => a == b
  | .i32 a, .i32 b => a == b
  | .i64 a, .i64 b => a == b
  | .u32 a, .u32 b => a == b
  | .u64 a, .u64 b => a == b
  | .f32 a, .f32 b => a.numberEq b
  | .f64 a, .f64 b => a.numberEq b
  | .string a, .string b => a == b
  | .bytes a, .bytes b => a == b
  | .enumNumber a, .enumNumber b => a == b
  | _, _ => false

/-- Numbers from a ten-thousandth to ten quadrillions are shown positionally and always with a
fraction; others with a small e. -/
def numberStyle : Decimal.NumberStyle where
  leastPoint := -3
  greatestPoint := 16
  mark := "e"
  wholeFraction := true
  exponentFraction := false
  nan := "NaN"
  infinity := "inf"

/-- How a value is shown to a developer: its variant and its contents. -/
def describe : Atom → String
  | .bool b => "Bool(" ++ (if b then "true" else "false") ++ ")"
  | .i32 n => s!"I32({n.toInt})"
  | .i64 n => s!"I64({n.toInt})"
  | .u32 n => s!"U32({n.toNat})"
  | .u64 n => s!"U64({n.toNat})"
  | .f32 x => "F32(" ++ x.render numberStyle ++ ")"
  | .f64 x => "F64(" ++ x.render numberStyle ++ ")"
  | .string s => "String(" ++ Quoted.showText s ++ ")"
  | .bytes b => "Bytes([" ++ ", ".intercalate (b.map fun x => toString x.toNat) ++ "])"
  | .enumNumber n => s!"EnumNumber({n.toInt})"

end Atom

/-- The resolved type of a field; messages and enumerations by their place in the pool. -/
inductive FieldKind where
  | double
  | float
  | int32
  | int64
  | uint32
  | uint64
  | sint32
  | sint64
  | fixed32
  | fixed64
  | sfixed32
  | sfixed64
  | bool
  | string
  | bytes
  | enum (index : Nat)
  | message (index : Nat)
  deriving DecidableEq, Repr

namespace FieldKind

/-- Whether values of the kind may be written as one run. -/
def isPackable : FieldKind → Bool
  | .string | .bytes | .message _ => false
  | _ => true

/-- The name of a kind. -/
def typeName : FieldKind → String
  | .double => "double"
  | .float => "float"
  | .int32 => "int32"
  | .int64 => "int64"
  | .uint32 => "uint32"
  | .uint64 => "uint64"
  | .sint32 => "sint32"
  | .sint64 => "sint64"
  | .fixed32 => "fixed32"
  | .fixed64 => "fixed64"
  | .sfixed32 => "sfixed32"
  | .sfixed64 => "sfixed64"
  | .bool => "bool"
  | .string => "string"
  | .bytes => "bytes"
  | .enum _ => "enum"
  | .message _ => "message"

/-- Whether the kind refers to another declared type. -/
def isReference : FieldKind → Bool
  | .enum _ | .message _ => true
  | _ => false

/-- The shape that values of the kind have on the wire. -/
def wireType : FieldKind → WireType
  | .double | .fixed64 | .sfixed64 => .sixtyFourBit
  | .float | .fixed32 | .sfixed32 => .thirtyTwoBit
  | .string | .bytes | .message _ => .lengthDelimited
  | _ => .varint

end FieldKind

/-- A field of a message. -/
structure Field where
  name : String
  /-- The name qualified by the message that declares the field. -/
  fullName : String
  number : Nat
  kind : FieldKind
  repeated : Bool
  /-- The value that the field was declared to have when it is absent. -/
  default? : Option Atom
  deriving Repr

/-- An enumeration: names for numbers, in the order of declaration. -/
structure EnumType where
  fullName : String
  values : List (String × Int32)
  deriving Repr

namespace EnumType

/-- The first declared name of a number. -/
def symbol? (e : EnumType) (number : Int32) : Option String :=
  (e.values.find? fun v => v.2 == number).map Prod.fst

/-- The number of a name. -/
def number? (e : EnumType) (symbol : String) : Option Int32 := e.values.lookup symbol

end EnumType

end CellFilter
