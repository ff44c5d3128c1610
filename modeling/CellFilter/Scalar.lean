import CellFilter.Text.Utf8
import CellFilter.Decimal.Shortest

/-!
# Scalars

What a field path yields and what a filter compares it with: one of seven types, numbers as
machine words.  Every scalar has a text, a canonical byte string and a place in the order of its
type.  Unsigned fields share the words of the signed types.
-/

namespace CellFilter

/-- The type of a scalar. -/
inductive ScalarType where
  | string
  | int
  | long
  | float
  | double
  | bool
  | bytes
  deriving DecidableEq, Repr

/-- The name of a type in messages. -/
def ScalarType.name : ScalarType → String
  | .string => "string"
  | .int => "int32"
  | .long => "int64"
  | .float => "float"
  | .double => "double"
  | .bool => "bool"
  | .bytes => "bytes"

/-- A typed value or operand. -/
inductive Scalar where
  | string (s : String)
  | int (n : Int32)
  | long (n : Int64)
  | float (x : Binary32)
  | double (x : Binary64)
  | bool (b : Bool)
  | bytes (b : Bytes)
  deriving DecidableEq, Repr

namespace Scalar

/-- An unsigned word of 32 bits, read as a signed one. -/
def ofUInt32 (n : UInt32) : Scalar := .int n.toInt32

/-- An unsigned word of 64 bits, read as a signed one. -/
def ofUInt64 (n : UInt64) : Scalar := .long n.toInt64

/-- The type of a scalar. -/
def type : Scalar → ScalarType
  | .string _ => .string
  | .int _ => .int
  | .long _ => .long
  | .float _ => .float
  | .double _ => .double
  | .bool _ => .bool
  | .bytes _ => .bytes

/-- Numbers from a thousandth to ten million are written positionally and always with a fraction;
others with a capital E. -/
def numberStyle : Decimal.NumberStyle where
  leastPoint := -2
  greatestPoint := 7
  mark := "E"
  wholeFraction := true
  exponentFraction := true
  nan := "NaN"
  infinity := "Infinity"

/-- The text of a scalar, which string operands are compared with. -/
def text : Scalar → String
  | .string s => s
  | .int n => toString n.toInt
  | .long n => toString n.toInt
  | .float x => x.render numberStyle
  | .double x => x.render numberStyle
  | .bool b => if b then "true" else "false"
  | .bytes b => Utf8.decodeLossy b

/-- The bytes that byte comparators see: numbers as big-endian words, a true boolean as 255. -/
def canonicalBytes : Scalar → Bytes
  | .string s => Utf8.encode s
  | .int n => Bytes.bigEndian 4 n.toUInt32.toNat
  | .long n => Bytes.bigEndian 8 n.toUInt64.toNat
  | .float x => Bytes.bigEndian 4 x.bits.toNat
  | .double x => Bytes.bigEndian 8 x.bits.toNat
  | .bool b => [if b then 0xFF else 0x00]
  | .bytes b => b

/-- Equality of values, under which a floating-point NaN differs from itself. -/
def valueEq : Scalar → Scalar → Bool
  | .string a, .string b => a == b
  | .int a, .int b => a == b
  | .long a, .long b => a == b
  | .float a, .float b => a.numberEq b
  | .double a, .double b => a.numberEq b
  | .bool a, .bool b => a == b
  | .bytes a, .bytes b => a == b
  | _, _ => false

/-- The order of texts: that of their UTF-8 bytes. -/
def compareText (a b : String) : Ordering := Bytes.compare (Utf8.encode a) (Utf8.encode b)

/-- Where a value stands relative to an operand.  A string operand is compared with the text of
any value; every other operand needs a value of its own type. -/
def compareTo? (value operand : Scalar) : Option Ordering :=
  match value, operand with
  | value, .string expected => some (compareText value.text expected)
  | .int a, .int b => some (compare a.toInt b.toInt)
  | .long a, .long b => some (compare a.toInt b.toInt)
  | .float a, .float b => some (a.compare b)
  | .double a, .double b => some (a.compare b)
  | .bool a, .bool b => some (compare a.toNat b.toNat)
  | .bytes a, .bytes b => some (a.compare b)
  | _, _ => none

end Scalar

end CellFilter
