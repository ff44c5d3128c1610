import CellFilter.Descriptor.Basic
import CellFilter.Schema.Default

/-!
# Pools of declared types

A pool holds units, each added after the units it depends on, and every message and enumeration
they declare under its fully qualified name.  Adding a unit first claims the names of all its types
in the order of declaration, then resolves the type of every field.  A relative type name is looked
up in the scope of the message that uses it and then in each enclosing scope, the outermost last.
-/

namespace CellFilter

/-- A message as a pool keeps it. -/
structure MessageType where
  fullName : String
  /-- The place of its unit in the pool. -/
  file : Nat
  /-- The way to its declaration: a message of the unit, then nested messages. -/
  path : List Nat
  fields : List Field
  deriving Inhabited

/-- What a type name stands for: a message or an enumeration, by its place in the pool. -/
inductive TypeRef where
  | message (index : Nat)
  | enum (index : Nat)
  deriving DecidableEq, Repr

/-- Units and the types they declare. -/
structure SchemaPool where
  files : List FileDescriptor
  messages : List MessageType
  enums : List EnumType
  /-- The types by their fully qualified names, the latest first. -/
  types : List (String × TypeRef)

/-- A name inside a scope; the empty scope adds nothing. -/
def qualify (scope name : String) : String :=
  if scope.isEmpty then name else scope ++ "." ++ name

/-- A scope without its last component. -/
def parentScope (scope : List Char) : List Char :=
  ((scope.reverse.dropWhile (· != '.')).drop 1).reverse

theorem parentScope_length {scope : List Char} (h : scope ≠ []) :
    (parentScope scope).length < scope.length := by
  have hpos : 0 < scope.length := List.length_pos_iff.mpr h
  have := (scope.reverse.dropWhile_suffix (· != '.')).length_le
  simp only [parentScope, List.length_reverse, List.length_drop] at *
  omega

/-- A scope and the scopes around it, up to the empty one. -/
def enclosingScopes (scope : List Char) : List (List Char) :=
  if scope = [] then [[]] else scope :: enclosingScopes (parentScope scope)
termination_by scope.length
decreasing_by exact parentScope_length ‹_›

/-- A type that a unit declares. -/
inductive Declaration where
  | message (fullName : String) (path : List Nat) (descriptor : MessageDescriptor)
  | enum (fullName : String) (descriptor : EnumDescriptor)

namespace Declaration

/-- The fully qualified name of a declared type. -/
def fullName : Declaration → String
  | .message name _ _ => name
  | .enum name _ => name

/-- The enumerations declared in a scope. -/
def ofEnums (scope : String) (enums : List EnumDescriptor) : List Declaration :=
  enums.map fun e => .enum (qualify scope e.name) e

mutual

/-- What a message declares: itself, the messages inside it, then the enumerations inside it. -/
def ofMessage (scope : String) (path : List Nat) : MessageDescriptor → List Declaration
  | ⟨name?, fields, nested, enums, carried⟩ =>
    let fullName := qualify scope (name?.getD "")
    .message fullName path ⟨name?, fields, nested, enums, carried⟩ ::
      (ofMessages fullName path 0 nested ++ ofEnums fullName enums)

/-- What a list of messages declares, the first of them at place `start`. -/
def ofMessages (scope : String) (path : List Nat) (start : Nat) :
    List MessageDescriptor → List Declaration
  | [] => []
  | m :: rest => ofMessage scope (path ++ [start]) m ++ ofMessages scope path (start + 1) rest

end

/-- Everything a unit declares: its messages, then its enumerations. -/
def ofFile (file : FileDescriptor) : List Declaration :=
  ofMessages file.package [] 0 file.messages ++ ofEnums file.package file.enums

end Declaration

namespace SchemaPool

/-- The pool without any unit. -/
def empty : SchemaPool := ⟨[], [], [], []⟩

/-- The unit of a name. -/
def file? (pool : SchemaPool) (name : String) : Option FileDescriptor :=
  pool.files.find? fun f => f.name == name

/-- Whether a unit of that name is there. -/
def containsFile (pool : SchemaPool) (name : String) : Bool := (pool.file? name).isSome

/-- What a fully qualified name stands for. -/
def type? (pool : SchemaPool) (fullName : String) : Option TypeRef := pool.types.lookup fullName

/-- The names of all messages, in the order in which they were added. -/
def messageNames (pool : SchemaPool) : List String := pool.messages.map MessageType.fullName

/-- Adds one declared type, its fields still missing. -/
def declare (pool : SchemaPool) (d : Declaration) : Except FilterError SchemaPool :=
  if (pool.type? d.fullName).isSome then
    .error (.malformedPayload (.duplicateType d.fullName))
  else match d with
    | .message fullName path _ =>
      .ok { pool with
        messages := pool.messages ++ [⟨fullName, pool.files.length, path, []⟩]
        types := (fullName, .message pool.messages.length) :: pool.types }
    | .enum fullName descriptor =>
      .ok { pool with
        enums := pool.enums ++ [⟨fullName, descriptor.values.map fun v => (v.name, v.number)⟩]
        types := (fullName, .enum pool.enums.length) :: pool.types }

/-- Finds the type that a name means inside a scope. -/
def resolveType (pool : SchemaPool) (scope typeName : String) : Except FilterError TypeRef :=
  let found := match typeName.toList with
    | '.' :: absolute => pool.type? (String.ofList absolute)
    | _ => (enclosingScopes scope.toList).findSome? fun s =>
        pool.type? (qualify (String.ofList s) typeName)
  match found with
  | some ref => .ok ref
  | none => .error (.unresolvedType typeName scope)

/-- The kind of a field whose type has a number of its own. -/
def plainKind? : Int → Option FieldKind
  | 2 => some .float
  | 3 => some .int64
  | 4 => some .uint64
  | 5 => some .int32
  | 6 => some .fixed64
  | 7 => some .fixed32
  | 8 => some .bool
  | 9 => some .string
  | 12 => some .bytes
  | 13 => some .uint32
  | 15 => some .sfixed32
  | 16 => some .sfixed64
  | 17 => some .sint32
  | 18 => some .sint64
  | 10 | 11 | 14 => none
  | _ => some .double

/-- The kind of a field: by its type number, or by the type that its type name means. -/
def fieldKind (pool : SchemaPool) (scope : String) (field : FieldDescriptor) :
    Except FilterError FieldKind := do
  let typeName := field.typeName?.getD ""
  match field.type? with
  | none =>
    match ← pool.resolveType scope typeName with
    | .message index => return .message index
    | .enum index => return .enum index
  | some code =>
    match plainKind? code.toInt with
    | some kind => return kind
    | none =>
      if code = 11 then
        match ← pool.resolveType scope typeName with
        | .message index => return .message index
        | .enum _ => throw (.unresolvedType typeName scope)
      else if code = 14 then
        match ← pool.resolveType scope typeName with
        | .enum index => return .enum index
        | .message _ => throw (.unresolvedType typeName scope)
      else throw (.unsupportedFieldType (qualify scope field.name) "group")

/-- The enumeration that a kind refers to. -/
def enumOf? (pool : SchemaPool) : FieldKind → Option EnumType
  | .enum index => pool.enums[index]?
  | _ => none

/-- The declared default of a field, if it has one. -/
def fieldDefault (pool : SchemaPool) (fullName : String) (kind : FieldKind) :
    Option String → Except FilterError (Option Atom)
  | none => .ok none
  | some text =>
    match Default.read? kind (pool.enumOf? kind) text with
    | some value => .ok (some value)
    | none => .error (.invalidDefault fullName text)

/-- The label of a repeated field. -/
def repeatedLabel : Int32 := 3

/-- Resolves a field of the message with the full name `scope`. -/
def resolveField (pool : SchemaPool) (scope : String) (field : FieldDescriptor) :
    Except FilterError Field := do
  let fullName := qualify scope field.name
  let kind ← pool.fieldKind scope field
  let default? ← pool.fieldDefault fullName kind field.defaultValue?
  let number := (field.number?.getD 0).toInt
  if number < 0 then throw (.malformedPayload (.negativeFieldNumber scope))
  return {
    name := field.name
    fullName
    number := number.toNat
    kind
    repeated := field.label? == some repeatedLabel
    default? }

/-- Resolves the fields of the declared messages, in order. -/
def resolveDeclared (pool : SchemaPool) : List Declaration → Except FilterError (List (List Field))
  | [] => .ok []
  | .enum _ _ :: rest => pool.resolveDeclared rest
  | .message fullName _ descriptor :: rest => do
    let fields ← descriptor.fields.mapM (pool.resolveField fullName)
    let others ← pool.resolveDeclared rest
    return fields :: others

/-- Gives the messages from place `start` on their fields. -/
def withFields (pool : SchemaPool) (start : Nat) (fields : List (List Field)) : SchemaPool :=
  { pool with messages := pool.messages.take start ++
      (pool.messages.drop start).zipWith (fun m fs => { m with fields := fs }) fields }

/-- Adds what a unit declares, with all fields resolved. -/
def register (pool : SchemaPool) (file : FileDescriptor) : Except FilterError SchemaPool := do
  let declarations := Declaration.ofFile file
  let declared ← declarations.foldlM declare pool
  let fields ← declared.resolveDeclared declarations
  return declared.withFields pool.messages.length fields

/-- Adds a unit whose dependencies are all there.  A unit whose name is taken already changes
nothing, and a unit that cannot be added leaves the pool as it was. -/
def addFile (pool : SchemaPool) (file : FileDescriptor) : Except FilterError SchemaPool := do
  if pool.containsFile file.name then return pool
  match file.dependencies.find? fun d => !pool.containsFile d with
  | some missing => throw (.undeclaredDependency file.name missing)
  | none =>
    let registered ← pool.register file
    return { registered with files := pool.files ++ [file] }

/-- Adds units one after the other. -/
def addFiles (pool : SchemaPool) (files : List FileDescriptor) : Except FilterError SchemaPool :=
  files.foldlM addFile pool

end SchemaPool

end CellFilter
