import CellFilter.Wire.Varint

/-!
# Field keys

Every field on the wire starts with a key: the number of the field and the shape of what follows.
-/

namespace CellFilter

/-- The shape of a field's contents on the wire. -/
inductive WireType where
  | varint
  | sixtyFourBit
  | lengthDelimited
  | startGroup
  | endGroup
  | thirtyTwoBit
  deriving DecidableEq, Repr

namespace WireType

/-- The name of a shape in messages. -/
def name : WireType → String
  | .varint => "Varint"
  | .sixtyFourBit => "SixtyFourBit"
  | .lengthDelimited => "LengthDelimited"
  | .startGroup => "StartGroup"
  | .endGroup => "EndGroup"
  | .thirtyTwoBit => "ThirtyTwoBit"

/-- The three-bit code of a shape. -/
def code : WireType → Nat
  | .varint => 0
  | .sixtyFourBit => 1
  | .lengthDelimited => 2
  | .startGroup => 3
  | .endGroup => 4
  | .thirtyTwoBit => 5

/-- The shape of a three-bit code; two codes are unused. -/
def ofCode? : Nat → Option WireType
  | 0 => some .varint
  | 1 => some .sixtyFourBit
  | 2 => some .lengthDelimited
  | 3 => some .startGroup
  | 4 => some .endGroup
  | 5 => some .thirtyTwoBit
  | _ => none

end WireType

/-- What can be wrong with encoded fields. -/
inductive WireFault where
  | invalidVarint
  | invalidKey (value : Nat)
  | invalidWireType (value : Nat)
  | invalidFieldNumber
  | unexpectedWireType (actual expected : WireType)
  | pastEnd
  | unexpectedGroupEnd
  | nestedTooDeep
  | invalidText
  /-- A fault inside the field of that number. -/
  | inField (number : Nat) (cause : WireFault)
  deriving DecidableEq, Repr

/-- The wording of a fault. -/
def WireFault.detail : WireFault → String
  | .invalidVarint => "invalid varint"
  | .invalidKey value => s!"invalid key value: {value}"
  | .invalidWireType value => s!"invalid wire type value: {value}"
  | .invalidFieldNumber => "invalid tag value: 0"
  | .unexpectedWireType actual expected =>
    s!"invalid wire type: {actual.name} (expected {expected.name})"
  | .pastEnd => "buffer underflow"
  | .unexpectedGroupEnd => "unexpected end group tag"
  | .nestedTooDeep => "recursion limit reached"
  | .invalidText => "invalid string value: data is not UTF-8 encoded"
  | .inField number cause => s!"field {number}: " ++ cause.detail

/-- A field number and the shape of the contents. -/
structure FieldKey where
  number : Nat
  wireType : WireType
  deriving DecidableEq, Repr

namespace FieldKey

/-- The bytes of a key. -/
def encode (key : FieldKey) : Bytes := Varint.encode (8 * key.number + key.wireType.code)

/-- The key that a number stands for. -/
def ofNumber (n : Nat) : Except WireFault FieldKey :=
  if UInt32.size ≤ n then .error (.invalidKey n)
  else match WireType.ofCode? (n % 8) with
    | none => .error (.invalidWireType (n % 8))
    | some wireType => if n / 8 = 0 then .error .invalidFieldNumber else .ok ⟨n / 8, wireType⟩

/-- Reads a key off the front. -/
def decode (bytes : Bytes) : Except WireFault (FieldKey × Bytes) :=
  match Varint.decode bytes with
  | none => .error .invalidVarint
  | some (n, rest) => (ofNumber n).map fun key => (key, rest)

end FieldKey

/-- Runs `step`, which reads off the front of the input, until nothing is left.  Every step is
taken to read at least one byte, so that `fuel` may be the length of the input. -/
def consume {σ ε : Type} (step : σ → Bytes → Except ε (σ × Bytes)) :
    (fuel : Nat) → σ → Bytes → Except ε σ
  | _, state, [] => .ok state
  | 0, state, _ :: _ => .ok state
  | fuel + 1, state, b :: rest => do
    let (next, left) ← step state (b :: rest)
    consume step fuel next left

/-- Runs `step` over the whole input. -/
def consumeAll {σ ε : Type} (step : σ → Bytes → Except ε (σ × Bytes)) (start : σ)
    (bytes : Bytes) : Except ε σ :=
  consume step bytes.length start bytes

end CellFilter
