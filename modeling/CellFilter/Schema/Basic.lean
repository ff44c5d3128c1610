import CellFilter.Schema.Pool

/-!
# Schemas

A schema is one message type inside a pool.  It answers for its fields, for the schemas of its
message fields, and for the unit and the declaration it was built from.
-/

namespace CellFilter

/-- A message type of a pool. -/
structure Schema where
  pool : SchemaPool
  index : Nat
  index_lt : index < pool.messages.length

/-- A field in a summary of a schema. -/
structure FieldSummary where
  name : String
  number : Nat
  kind : String
  repeated : Bool
  default? : Option String

/-- A summary of a schema. -/
structure SchemaSummary where
  name : String
  unit : String
  fields : List FieldSummary

namespace Schema

/-- The message type at a place of a pool. -/
def ofIndex? (pool : SchemaPool) (index : Nat) : Option Schema :=
  if h : index < pool.messages.length then some ⟨pool, index, h⟩ else none

/-- A name without the dots in front of it. -/
def trimName (name : String) : String := String.ofList (name.toList.dropWhile (· == '.'))

/-- The message of a fully qualified name; dots in front do not count. -/
def ofPool? (pool : SchemaPool) (name : String) : Option Schema :=
  match pool.type? (trimName name) with
  | some (.message index) => ofIndex? pool index
  | _ => none

variable (s : Schema)

/-- The message type. -/
def type : MessageType := s.pool.messages.get ⟨s.index, s.index_lt⟩

/-- The fully qualified name. -/
def fullName : String := s.type.fullName

/-- The fields in the order of declaration. -/
def fields : List Field := s.type.fields

/-- The first field of a name. -/
def fieldByName? (name : String) : Option Field := s.fields.find? fun f => f.name == name

/-- The last field of a number. -/
def fieldByNumber? (number : Nat) : Option Field :=
  s.fields.reverse.find? fun f => f.number == number

/-- The schema of the values of a message field. -/
def messageSchema? (field : Field) : Option Schema :=
  match field.kind with
  | .message index => ofIndex? s.pool index
  | _ => none

/-- The enumeration of an enumeration field. -/
def enumType? (field : Field) : Option EnumType := s.pool.enumOf? field.kind

/-- Whether no field refers to another declared type. -/
def isSelfContained : Bool := s.fields.all fun f => !f.kind.isReference

/-- The unit that declares the message. -/
def file : FileDescriptor := s.pool.files[s.type.file]?.getD default

/-- Follows a path of places through nested messages. -/
def follow (m : MessageDescriptor) : List Nat → MessageDescriptor
  | [] => m
  | i :: rest => follow (m.nested[i]?.getD default) rest

/-- The declaration that the message was built from. -/
def declaration : MessageDescriptor :=
  match s.type.path with
  | [] => default
  | i :: rest => follow (s.file.messages[i]?.getD default) rest

/-- The name of a kind, of the message or enumeration itself for a reference. -/
def kindName : FieldKind → String
  | .message index => (s.pool.messages[index]?.map MessageType.fullName).getD ""
  | .enum index => (s.pool.enums[index]?.map EnumType.fullName).getD ""
  | kind => kind.typeName

/-- A summary of the schema. -/
def summary : SchemaSummary where
  name := s.fullName
  unit := s.file.name
  fields := s.fields.map fun f =>
    { name := f.name
      number := f.number
      kind := s.kindName f.kind
      repeated := f.repeated
      default? := f.default?.map Atom.describe }

end Schema

end CellFilter
