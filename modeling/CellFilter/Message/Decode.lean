import CellFilter.Message.Basic

/-!
# Reading messages

The bytes of a message, read against its schema.  Fields that the schema does not declare are
passed over.  A repeated field of a packable kind may come one by one, in runs, or both.  Nested
messages may be a hundred levels deep.
-/

namespace CellFilter

namespace Message

/-- The fields read so far: single values and lists of repeated values, apart. -/
structure Draft where
  singles : List (Nat × Value)
  lists : List (Nat × Value)

/-- The draft without any field. -/
def Draft.empty : Draft := ⟨[], []⟩

/-- Adds an occurrence of a single field. -/
def Draft.addSingle (d : Draft) (number : Nat) (value : Value) : Draft :=
  let merged := Value.merge (d.singles.lookup number) value
  { d with singles := putField d.singles number merged }

/-- Adds values to a repeated field. -/
def Draft.addAll (d : Draft) (number : Nat) (values : List Value) : Draft :=
  let joined := Value.merge (d.lists.lookup number) (.list values)
  { d with lists := putField d.lists number joined }

/-- The message of a draft. -/
def Draft.finish (d : Draft) (schema : Schema) : Message :=
  ⟨schema, d.lists.foldl (fun fields entry => putField fields entry.1 entry.2) d.singles⟩

/-- A fault in a message of a schema. -/
def fault {α : Type} (schema : Schema) (cause : MessageFault) : Except FilterError α :=
  .error (.malformedMessage schema.fullName cause)

/-- Reads a variable-length integer. -/
def readVarint (bytes : Bytes) : Except FilterError (Nat × Bytes) :=
  match Varint.decode bytes with
  | some r => .ok r
  | none => .error (.undecodable .invalidVarint)

/-- Reads a length and so many bytes. -/
def readDelimited (schema : Schema) (bytes : Bytes) : Except FilterError (Bytes × Bytes) := do
  let (n, rest) ← readVarint bytes
  if n ≤ rest.length then return (rest.take n, rest.drop n)
  else fault schema (.lengthPastEnd n)

/-- Reads a word of a fixed number of bytes. -/
def readFixed (schema : Schema) (width : Nat) (bytes : Bytes) : Except FilterError (Nat × Bytes) :=
  if width ≤ bytes.length then
    .ok (Bytes.ofLittleEndian (bytes.take width), bytes.drop width)
  else fault schema .fixedWidthPastEnd

/-- A signed number of 32 bits from its zigzag form. -/
def unzigzag32 (raw : UInt32) : Int32 := (raw >>> 1).toInt32 ^^^ -(raw &&& 1).toInt32

/-- A signed number of 64 bits from its zigzag form. -/
def unzigzag64 (raw : UInt64) : Int64 := (raw >>> 1).toInt64 ^^^ -(raw &&& 1).toInt64

/-- The value that a variable-length integer stands for. -/
def atomOfVarint (kind : FieldKind) (n : Nat) : Option Atom :=
  match kind with
  | .int32 => some (.i32 n.toUInt32.toInt32)
  | .int64 => some (.i64 n.toUInt64.toInt64)
  | .uint32 => some (.u32 n.toUInt32)
  | .uint64 => some (.u64 n.toUInt64)
  | .sint32 => some (.i32 (unzigzag32 n.toUInt32))
  | .sint64 => some (.i64 (unzigzag64 n.toUInt64))
  | .bool => some (.bool (n != 0))
  | .enum _ => some (.enumNumber n.toUInt32.toInt32)
  | _ => none

/-- The value that a word of four bytes stands for. -/
def atomOfWord32 (kind : FieldKind) (word : UInt32) : Option Atom :=
  match kind with
  | .float => some (.f32 ⟨word⟩)
  | .fixed32 => some (.u32 word)
  | .sfixed32 => some (.i32 word.toInt32)
  | _ => none

/-- The value that a word of eight bytes stands for. -/
def atomOfWord64 (kind : FieldKind) (word : UInt64) : Option Atom :=
  match kind with
  | .double => some (.f64 ⟨word⟩)
  | .fixed64 => some (.u64 word)
  | .sfixed64 => some (.i64 word.toInt64)
  | _ => none

/-- A value of the field, or the complaint that its kind has no values of this shape. -/
def ofKind (schema : Schema) (field : Field) (wireType : WireType) :
    Option Atom → Except FilterError Atom
  | some a => .ok a
  | none => fault schema (.kindMismatch field.name wireType)

/-- Reads one value of a field that is not a message. -/
def readAtom (schema : Schema) (field : Field) (wireType : WireType) (bytes : Bytes) :
    Except FilterError (Atom × Bytes) := do
  match wireType with
  | .varint =>
    let (n, rest) ← readVarint bytes
    return (← ofKind schema field wireType (atomOfVarint field.kind n), rest)
  | .thirtyTwoBit =>
    let (n, rest) ← readFixed schema 4 bytes
    return (← ofKind schema field wireType (atomOfWord32 field.kind n.toUInt32), rest)
  | .sixtyFourBit =>
    let (n, rest) ← readFixed schema 8 bytes
    return (← ofKind schema field wireType (atomOfWord64 field.kind n.toUInt64), rest)
  | .lengthDelimited =>
    let (body, rest) ← readDelimited schema bytes
    match field.kind with
    | .string =>
      match Utf8.decode? body with
      | some s => return (.string s, rest)
      | none => fault schema (.invalidText field.name)
    | .bytes => return (.bytes body, rest)
    | _ => fault schema (.kindMismatch field.name wireType)
  | _ => fault schema .groupEncoding

/-- Demands the shape that values of the field have. -/
def checkWireType (schema : Schema) (field : Field) (actual : WireType) :
    Except FilterError Unit :=
  if actual = field.kind.wireType then .ok ()
  else fault schema (.unexpectedWireType field.name actual field.kind.wireType)

/-- Passes over the contents of a field that is not declared. -/
def skip (schema : Schema) (wireType : WireType) (bytes : Bytes) : Except FilterError Bytes := do
  match wireType with
  | .varint => return (← readVarint bytes).2
  | .thirtyTwoBit => return (← readFixed schema 4 bytes).2
  | .sixtyFourBit => return (← readFixed schema 8 bytes).2
  | .lengthDelimited => return (← readDelimited schema bytes).2
  | _ => fault schema .groupEncoding

/-- Reads one value of a run. -/
def runStep (schema : Schema) (field : Field) (values : List Value) (bytes : Bytes) :
    Except FilterError (List Value × Bytes) := do
  let (a, rest) ← readAtom schema field field.kind.wireType bytes
  return (values ++ [.atom a], rest)

/-- How nested messages are read. -/
abbrev ReadNested := Schema → Bytes → Except FilterError Message

/-- Reads one value of a declared field. -/
def readValue (nested : ReadNested) (schema : Schema) (field : Field) (wireType : WireType)
    (bytes : Bytes) : Except FilterError (Value × Bytes) := do
  checkWireType schema field wireType
  match field.kind with
  | .message _ =>
    let (body, rest) ← readDelimited schema bytes
    match schema.messageSchema? field with
    | some inner => return (.message (← nested inner body), rest)
    | none => fault schema .missingFieldSchema
  | _ =>
    let (a, rest) ← readAtom schema field wireType bytes
    return (.atom a, rest)

/-- Reads one field off the front. -/
def step (nested : ReadNested) (schema : Schema) (d : Draft) (bytes : Bytes) :
    Except FilterError (Draft × Bytes) := do
  let (key, rest) ← (FieldKey.decode bytes).mapError .undecodable
  match schema.fieldByNumber? key.number with
  | none => return (d, ← skip schema key.wireType rest)
  | some field =>
    if field.repeated && key.wireType == .lengthDelimited && field.kind.isPackable then
      let (run, rest) ← readDelimited schema rest
      let values ← consumeAll (runStep schema field) [] run
      return (d.addAll field.number values, rest)
    else
      let (value, rest) ← readValue nested schema field key.wireType rest
      if field.repeated then return (d.addAll field.number [value], rest)
      else return (d.addSingle field.number value, rest)

/-- Reads a message; so many levels of messages, itself included, may be entered. -/
def decodeWithin : (levels : Nat) → ReadNested
  | 0, schema, _ => fault schema .nestedTooDeep
  | levels + 1, schema, bytes => do
    let d ← consumeAll (step (decodeWithin levels) schema) .empty bytes
    return d.finish schema

/-- How many levels of messages may be nested inside a message. -/
def maxDepth : Nat := 100

/-- Reads a message of a schema. -/
def decode (schema : Schema) (bytes : Bytes) : Except FilterError Message :=
  decodeWithin (maxDepth + 1) schema bytes

end Message

end CellFilter
