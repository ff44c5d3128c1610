import CellFilter.Descriptor.Layout
import CellFilter.Wire.Reader

/-!
# Operands

What a predicate compares with: a scalar or an encoded message.  A scalar travels as a small message
with one field for each scalar type; of several such fields the last one counts.
-/

namespace CellFilter

/-- What a predicate compares with. -/
inductive Operand where
  | scalar (value : Scalar)
  /-- A message, encoded for the schema of the predicate. -/
  | message (encoded : Bytes)
  deriving DecidableEq

/-- Equality of operands; floating-point numbers are compared as numbers. -/
def Operand.valueEq : Operand → Operand → Bool
  | .scalar a, .scalar b => a.valueEq b
  | .message a, .message b => a == b
  | _, _ => false

namespace Scalar

/-- The field in which a scalar of a type travels. -/
def fieldNumber : ScalarType → Nat
  | .string => 1
  | .int => 2
  | .long => 3
  | .float => 4
  | .double => 5
  | .bool => 6
  | .bytes => 7

/-- The shape in which a scalar of a type travels. -/
def wireType : ScalarType → WireType
  | .string => .lengthDelimited
  | .int => .varint
  | .long => .varint
  | .float => .thirtyTwoBit
  | .double => .sixtyFourBit
  | .bool => .varint
  | .bytes => .lengthDelimited

/-- The contents of the field. -/
def encodeContents : Scalar → Bytes
  | .string s => Frame.putText s
  | .int n => Varint.encode n.toInt64.toUInt64.toNat
  | .long n => Varint.encode n.toUInt64.toNat
  | .float x => Bytes.littleEndian 4 x.bits.toNat
  | .double x => Bytes.littleEndian 8 x.bits.toNat
  | .bool b => Varint.encode b.toNat
  | .bytes b => Frame.putBytes b

/-- The message in which a scalar travels. -/
def encode (value : Scalar) : Bytes :=
  FieldKey.encode ⟨fieldNumber value.type, wireType value.type⟩ ++ value.encodeContents

/-- Whether a scalar is what an absent field of its type stands for; a negative zero is. -/
def isDefault : Scalar → Bool
  | .string s => s.isEmpty
  | .int n => n == 0
  | .long n => n == 0
  | .float x => x.numberEq ⟨0⟩
  | .double x => x.numberEq ⟨0⟩
  | .bool b => !b
  | .bytes b => b.isEmpty

/-- The message that wraps a scalar: it has the scalar in its first field, and no field for a
default. -/
def wrapped (value : Scalar) : Bytes :=
  if value.isDefault then []
  else FieldKey.encode ⟨1, wireType value.type⟩ ++ value.encodeContents

/-- Reads the contents of the field of a type. -/
def readContents (type : ScalarType) : Record.Read Scalar := fun bytes => do
  match type with
  | .string =>
    let (body, rest) ← Record.readDelimited bytes
    match Utf8.decode? body with
    | some s => return (.string s, rest)
    | none => throw .invalidText
  | .int =>
    let (n, rest) ← Record.readVarint bytes
    return (.int n.toUInt32.toInt32, rest)
  | .long =>
    let (n, rest) ← Record.readVarint bytes
    return (.long n.toUInt64.toInt64, rest)
  | .float =>
    let (word, rest) ← Record.readExactly 4 bytes
    return (.float ⟨(Bytes.ofLittleEndian word).toUInt32⟩, rest)
  | .double =>
    let (word, rest) ← Record.readExactly 8 bytes
    return (.double ⟨(Bytes.ofLittleEndian word).toUInt64⟩, rest)
  | .bool =>
    let (n, rest) ← Record.readVarint bytes
    return (.bool (n != 0), rest)
  | .bytes =>
    let (body, rest) ← Record.readDelimited bytes
    return (.bytes body, rest)

/-- All types. -/
def types : List ScalarType := [.string, .int, .long, .float, .double, .bool, .bytes]

/-- Reads one field of the message; others than those of the types are skipped. -/
def readStep (latest : Option Scalar) : Record.Read (Option Scalar) := fun bytes => do
  let (key, rest) ← FieldKey.decode bytes
  match types.find? fun type => fieldNumber type == key.number with
  | none => return (latest, ← Record.skip Record.maxDepth key rest)
  | some type =>
    let contents : Except WireFault (Scalar × Bytes) := do
      Record.checkWireType key.wireType (wireType type)
      readContents type rest
    let (value, rest) ← contents.mapError (.inField key.number)
    return (some value, rest)

/-- Reads the message in which a scalar travels. -/
def decode (bytes : Bytes) : Except FilterError Scalar := do
  match ← (consumeAll readStep none bytes).mapError .undecodable with
  | some value => return value
  | none => throw (.invalidOperand .noValue)

end Scalar

end CellFilter
