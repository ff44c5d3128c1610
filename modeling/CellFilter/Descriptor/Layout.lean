import CellFilter.Descriptor.Record

/-!
# Layouts

The tables by which descriptors are read: for each kind of record the numbers of its fields and
what they hold.  Units and sets of units are the outermost kinds; all others occur inside them.
-/

namespace CellFilter

/-- A kind of record that occurs in descriptors. -/
inductive RecordKind where
  | unitSet
  | unit
  | message
  | extensionRange
  | extensionRangeOptions
  | reservedRange
  | field
  | oneof
  | enumeration
  | enumerationValue
  | service
  | method
  | unitOptions
  | messageOptions
  | fieldOptions
  | oneofOptions
  | enumerationOptions
  | enumerationValueOptions
  | serviceOptions
  | methodOptions
  | customOption
  | customOptionName
  | sourceInfo
  | sourceLocation
  deriving DecidableEq, Repr

/-- What a field of a record holds. -/
inductive Shape where
  | text
  | raw
  /-- A signed number of 32 bits; names of enumerations travel this way too. -/
  | int
  | word
  | flag
  | double
  | record (kind : RecordKind)

/-- How often a field may occur. -/
inductive Arity where
  | single
  | repeated
  /-- Any number of times, written as one run. -/
  | packed
  deriving DecidableEq

/-- A field of a record. -/
structure FieldLayout where
  number : Nat
  shape : Shape
  arity : Arity

namespace RecordKind

/-- A field that occurs at most once. -/
def one (number : Nat) (shape : Shape) : FieldLayout := ⟨number, shape, .single⟩

/-- A field that may occur any number of times. -/
def many (number : Nat) (shape : Shape) : FieldLayout := ⟨number, shape, .repeated⟩

/-- The options that have no field of their own. -/
def customOptions : FieldLayout := many 999 (.record .customOption)

/-- The fields of a kind of record. -/
def fields : RecordKind → List FieldLayout
  | .unitSet => [many 1 (.record .unit)]
  | .unit =>
    [one 1 .text, one 2 .text, many 3 .text, many 4 (.record .message),
      many 5 (.record .enumeration), many 6 (.record .service), many 7 (.record .field),
      one 8 (.record .unitOptions), one 9 (.record .sourceInfo), many 10 .int, many 11 .int,
      one 12 .text]
  | .message =>
    [one 1 .text, many 2 (.record .field), many 3 (.record .message),
      many 4 (.record .enumeration), many 5 (.record .extensionRange), many 6 (.record .field),
      one 7 (.record .messageOptions), many 8 (.record .oneof), many 9 (.record .reservedRange),
      many 10 .text]
  | .extensionRange => [one 1 .int, one 2 .int, one 3 (.record .extensionRangeOptions)]
  | .extensionRangeOptions => [customOptions]
  | .reservedRange => [one 1 .int, one 2 .int]
  | .field =>
    [one 1 .text, one 2 .text, one 3 .int, one 4 .int, one 5 .int, one 6 .text, one 7 .text,
      one 8 (.record .fieldOptions), one 9 .int, one 10 .text, one 17 .flag]
  | .oneof => [one 1 .text, one 2 (.record .oneofOptions)]
  | .enumeration =>
    [one 1 .text, many 2 (.record .enumerationValue), one 3 (.record .enumerationOptions),
      many 4 (.record .reservedRange), many 5 .text]
  | .enumerationValue => [one 1 .text, one 2 .int, one 3 (.record .enumerationValueOptions)]
  | .service => [one 1 .text, many 2 (.record .method), one 3 (.record .serviceOptions)]
  | .method =>
    [one 1 .text, one 2 .text, one 3 .text, one 4 (.record .methodOptions), one 5 .flag,
      one 6 .flag]
  | .unitOptions =>
    [one 1 .text, one 8 .text, one 9 .int, one 10 .flag, one 11 .text, one 16 .flag, one 17 .flag,
      one 18 .flag, one 20 .flag, one 23 .flag, one 27 .flag, one 31 .flag, one 36 .text,
      one 37 .text, one 39 .text, one 40 .text, one 41 .text, one 42 .flag, one 44 .text,
      one 45 .text, customOptions]
  | .messageOptions => [one 1 .flag, one 2 .flag, one 3 .flag, one 7 .flag, customOptions]
  | .fieldOptions =>
    [one 1 .int, one 2 .flag, one 3 .flag, one 5 .flag, one 6 .int, one 10 .flag, customOptions]
  | .oneofOptions => [customOptions]
  | .enumerationOptions => [one 2 .flag, one 3 .flag, customOptions]
  | .enumerationValueOptions => [one 1 .flag, customOptions]
  | .serviceOptions => [one 33 .flag, customOptions]
  | .methodOptions => [one 33 .flag, one 34 .int, customOptions]
  | .customOption =>
    [many 2 (.record .customOptionName), one 3 .text, one 4 .word, one 5 .word, one 6 .double,
      one 7 .raw, one 8 .text]
  | .customOptionName => [one 1 .text, one 2 .flag]
  | .sourceInfo => [many 1 (.record .sourceLocation)]
  | .sourceLocation =>
    [⟨1, .int, .packed⟩, ⟨2, .int, .packed⟩, one 3 .text, one 4 .text, many 6 .text]

/-- The record without any contents: its required fields are there all the same. -/
def blank : RecordKind → Record
  | .customOptionName => [(1, .text ""), (2, .number 0)]
  | _ => []

end RecordKind

namespace Record

/-- What can be read off the front of some bytes. -/
abbrev Read (α : Type) := Bytes → Except WireFault (α × Bytes)

/-- Reads a variable-length integer. -/
def readVarint : Read Nat := fun bytes =>
  match Varint.decode bytes with
  | some r => .ok r
  | none => .error .invalidVarint

/-- Reads so many bytes. -/
def readExactly (n : Nat) : Read Bytes := fun bytes =>
  if n ≤ bytes.length then .ok (bytes.take n, bytes.drop n) else .error .pastEnd

/-- Reads bytes after their length. -/
def readDelimited : Read Bytes := fun bytes => do
  let (n, rest) ← readVarint bytes
  readExactly n rest

/-- Demands a shape of contents. -/
def checkWireType (actual expected : WireType) : Except WireFault Unit :=
  if actual = expected then .ok () else .error (.unexpectedWireType actual expected)

/-- Skips fields up to the end of the group with a number. -/
def skipGroup (skipField : FieldKey → Bytes → Except WireFault Bytes) (number : Nat) :
    Nat → Bytes → Except WireFault Bytes
  | 0, _ => .error .invalidVarint
  | fuel + 1, bytes => do
    let (key, rest) ← FieldKey.decode bytes
    if key.wireType = .endGroup then
      if key.number = number then return rest else throw .unexpectedGroupEnd
    else skipGroup skipField number fuel (← skipField key rest)

/-- Skips the contents of a field; `depth` more levels may be entered. -/
def skip : (depth : Nat) → FieldKey → Bytes → Except WireFault Bytes
  | 0, _, _ => .error .nestedTooDeep
  | depth + 1, key, bytes =>
    match key.wireType with
    | .varint => (readVarint bytes).map Prod.snd
    | .sixtyFourBit => (readExactly 8 bytes).map Prod.snd
    | .thirtyTwoBit => (readExactly 4 bytes).map Prod.snd
    | .lengthDelimited => (readDelimited bytes).map Prod.snd
    | .startGroup => skipGroup (skip depth) key.number bytes.length bytes
    | .endGroup => .error .unexpectedGroupEnd

/-- A number as the shape of its field keeps it. -/
def normalWord (shape : Shape) (n : Nat) : UInt64 :=
  match shape with
  | .int => signExtend n.toUInt64
  | .flag => if n = 0 then 0 else 1
  | _ => n.toUInt64

/-- Reads one number of a run. -/
def readRunStep (shape : Shape) (words : List UInt64) : Read (List UInt64) := fun bytes => do
  let (n, rest) ← readVarint bytes
  return (words ++ [normalWord shape n], rest)

/-- Reads numbers: one of them, or a run after its length. -/
def readNumbers (shape : Shape) (wireType : WireType) : Read (List UInt64) := fun bytes => do
  if wireType = .lengthDelimited then
    let (run, rest) ← readDelimited bytes
    let words ← consumeAll (readRunStep shape) [] run
    return (words, rest)
  else
    checkWireType wireType .varint
    readRunStep shape [] bytes

/-- Reads the contents of a single field that is not a record. -/
def readItem (shape : Shape) (wireType : WireType) : Read Item := fun bytes => do
  match shape with
  | .text =>
    checkWireType wireType .lengthDelimited
    let (body, rest) ← readDelimited bytes
    match Utf8.decode? body with
    | some s => return (.text s, rest)
    | none => throw .invalidText
  | .raw =>
    checkWireType wireType .lengthDelimited
    let (body, rest) ← readDelimited bytes
    return (.raw body, rest)
  | .double =>
    checkWireType wireType .sixtyFourBit
    let (body, rest) ← readExactly 8 bytes
    return (.fixed (Bytes.ofLittleEndian body).toUInt64, rest)
  | .record _ => throw .pastEnd
  | _ =>
    checkWireType wireType .varint
    let (n, rest) ← readVarint bytes
    return (.number (normalWord shape n), rest)

/-- Reads more of a nested record, starting from what is known of it. -/
abbrev ReadNested := RecordKind → Record → Bytes → Except WireFault Record

/-- The record that a single field already holds. -/
def nestedSoFar (acc : Record) (number : Nat) (kind : RecordKind) : Record :=
  match acc.get? number with
  | some (.record r) => r
  | _ => kind.blank

/-- Reads the contents of a listed field into a record. -/
def readField (nested : ReadNested) (field : FieldLayout) (wireType : WireType) (acc : Record) :
    Read Record := fun bytes => do
  match field.shape with
  | .record kind =>
    checkWireType wireType .lengthDelimited
    let (body, rest) ← readDelimited bytes
    if field.arity = .single then
      let r ← nested kind (nestedSoFar acc field.number kind) body
      return (acc.set field.number (.record r), rest)
    else
      let r ← nested kind kind.blank body
      return (acc.insert field.number (.record r), rest)
  | .int =>
    match field.arity with
    | .single =>
      let (item, rest) ← readItem field.shape wireType bytes
      return (acc.set field.number item, rest)
    | .repeated =>
      let (words, rest) ← readNumbers field.shape wireType bytes
      return (words.foldl (fun r w => r.insert field.number (.number w)) acc, rest)
    | .packed =>
      let (words, rest) ← readNumbers field.shape wireType bytes
      let known := match acc.get? field.number with
        | some (.packed ws) => ws
        | _ => []
      let all := known ++ words
      return (if all.isEmpty then acc else acc.set field.number (.packed all), rest)
  | _ =>
    let (item, rest) ← readItem field.shape wireType bytes
    return (if field.arity = .single then acc.set field.number item
      else acc.insert field.number item, rest)

/-- Reads one field into a record, or skips it. -/
def step (depth : Nat) (nested : ReadNested) (kind : RecordKind) (acc : Record) : Read Record :=
  fun bytes => do
    let (key, rest) ← FieldKey.decode bytes
    match kind.fields.find? fun f => f.number == key.number with
    | none => return (acc, ← skip depth key rest)
    | some field => (readField nested field key.wireType acc rest).mapError (.inField key.number)

/-- Reads fields into a record; `depth` more levels may be entered. -/
def readInto : (depth : Nat) → ReadNested
  | 0, kind, acc, bytes => consumeAll (step 0 (fun _ _ _ => .error .nestedTooDeep) kind) acc bytes
  | depth + 1, kind, acc, bytes => consumeAll (step (depth + 1) (readInto depth) kind) acc bytes

/-- How deeply records may be nested. -/
def maxDepth : Nat := 100

/-- Reads a record of a kind. -/
def decode (kind : RecordKind) (bytes : Bytes) : Except WireFault Record :=
  readInto maxDepth kind kind.blank bytes

end Record

end CellFilter
