import CellFilter.Descriptor.Layout

/-!
# Units

A unit declares messages and enumerations under a package and names the units it depends on.  The
types here hold what the rest of the library looks at; everything else a unit says is carried along
as a record, so that a unit can be written again as it was read.
-/

namespace CellFilter

/-- A field as it is declared. -/
structure FieldDescriptor where
  name? : Option String
  extendee? : Option String
  number? : Option Int32
  label? : Option Int32
  type? : Option Int32
  typeName? : Option String
  defaultValue? : Option String
  carried : Record
  deriving Inhabited

/-- A name for a number of an enumeration. -/
structure EnumValueDescriptor where
  name? : Option String
  number? : Option Int32
  carried : Record
  deriving Inhabited

/-- An enumeration as it is declared. -/
structure EnumDescriptor where
  name? : Option String
  values : List EnumValueDescriptor
  carried : Record
  deriving Inhabited

/-- A message as it is declared, with the types declared inside it. -/
structure MessageDescriptor where
  name? : Option String
  fields : List FieldDescriptor
  nested : List MessageDescriptor
  enums : List EnumDescriptor
  carried : Record
  deriving Inhabited

/-- A unit: a file of declarations. -/
structure FileDescriptor where
  name? : Option String
  package? : Option String
  dependencies : List String
  messages : List MessageDescriptor
  enums : List EnumDescriptor
  carried : Record
  deriving Inhabited

/-- A field that may be there. -/
def Record.optional {α : Type} (number : Nat) (item : α → Item) : Option α → Record
  | none => []
  | some a => [(number, item a)]

/-- A field with a number of 32 bits. -/
def Item.ofInt32 (n : Int32) : Item := .number n.toInt64.toUInt64

/-- The records in a repeated field. -/
def Record.records (r : Record) (number : Nat) : List Record :=
  r.filterMap fun f => match f with
    | (n, .record r) => if n = number then some r else none
    | _ => none

/-- The fields whose numbers are not listed. -/
def Record.without (r : Record) (numbers : List Nat) : Record :=
  r.filter fun f => !numbers.contains f.1

namespace FieldDescriptor

/-- The name, empty if there is none. -/
def name (d : FieldDescriptor) : String := d.name?.getD ""

/-- Reads a field's record. -/
def ofRecord (r : Record) : FieldDescriptor where
  name? := r.text? 1
  extendee? := r.text? 2
  number? := r.int? 3
  label? := r.int? 4
  type? := r.int? 5
  typeName? := r.text? 6
  defaultValue? := r.text? 7
  carried := r.without [1, 2, 3, 4, 5, 6, 7]

/-- The record of a field. -/
def toRecord (d : FieldDescriptor) : Record :=
  Record.optional 1 .text d.name? ++ Record.optional 2 .text d.extendee? ++
    Record.optional 3 .ofInt32 d.number? ++ Record.optional 4 .ofInt32 d.label? ++
    Record.optional 5 .ofInt32 d.type? ++ Record.optional 6 .text d.typeName? ++
    Record.optional 7 .text d.defaultValue? ++ d.carried

end FieldDescriptor

namespace EnumValueDescriptor

/-- The name, empty if there is none. -/
def name (d : EnumValueDescriptor) : String := d.name?.getD ""

/-- The number, zero if there is none. -/
def number (d : EnumValueDescriptor) : Int32 := d.number?.getD 0

/-- Reads the record of a value. -/
def ofRecord (r : Record) : EnumValueDescriptor where
  name? := r.text? 1
  number? := r.int? 2
  carried := r.without [1, 2]

/-- The record of a value. -/
def toRecord (d : EnumValueDescriptor) : Record :=
  Record.optional 1 .text d.name? ++ Record.optional 2 .ofInt32 d.number? ++ d.carried

end EnumValueDescriptor

namespace EnumDescriptor

/-- The name, empty if there is none. -/
def name (d : EnumDescriptor) : String := d.name?.getD ""

/-- Reads the record of an enumeration. -/
def ofRecord (r : Record) : EnumDescriptor where
  name? := r.text? 1
  values := (r.records 2).map .ofRecord
  carried := r.without [1, 2]

/-- The record of an enumeration. -/
def toRecord (d : EnumDescriptor) : Record :=
  Record.optional 1 .text d.name? ++ d.values.map (fun v => (2, .record v.toRecord)) ++ d.carried

end EnumDescriptor

namespace MessageDescriptor

/-- The name, empty if there is none. -/
def name (d : MessageDescriptor) : String := d.name?.getD ""

/-- A message by its record and the messages declared inside it. -/
def ofParts (r : Record) (nested : List MessageDescriptor) : MessageDescriptor where
  name? := r.text? 1
  fields := (r.records 2).map .ofRecord
  nested := nested
  enums := (r.records 4).map .ofRecord
  carried := r.without [1, 2, 3, 4]

mutual

/-- The messages declared inside a message. -/
def nestedOf : List (Nat × Item) → List MessageDescriptor
  | [] => []
  | (number, item) :: rest =>
    if number = 3 then nestedItem item ++ nestedOf rest else nestedOf rest

/-- The message in one field of a message's record. -/
def nestedItem : Item → List MessageDescriptor
  | .record r => [ofParts r (nestedOf r)]
  | _ => []

end

/-- Reads the record of a message. -/
def ofRecord (r : Record) : MessageDescriptor := ofParts r (nestedOf r)

mutual

/-- The record of a message. -/
def toRecord : MessageDescriptor → Record
  | ⟨name?, fields, nested, enums, carried⟩ =>
    Record.optional 1 .text name? ++ fields.map (fun f => (2, .record f.toRecord)) ++
      nestedRecords nested ++ enums.map (fun e => (4, .record e.toRecord)) ++ carried

/-- The fields that hold nested messages. -/
def nestedRecords : List MessageDescriptor → Record
  | [] => []
  | m :: rest => (3, .record m.toRecord) :: nestedRecords rest

end

end MessageDescriptor

namespace FileDescriptor

/-- The name, empty if there is none. -/
def name (d : FileDescriptor) : String := d.name?.getD ""

/-- The package, empty if there is none. -/
def package (d : FileDescriptor) : String := d.package?.getD ""

/-- Reads the record of a unit. -/
def ofRecord (r : Record) : FileDescriptor where
  name? := r.text? 1
  package? := r.text? 2
  dependencies := r.texts 3
  messages := (r.records 4).map .ofRecord
  enums := (r.records 5).map .ofRecord
  carried := r.without [1, 2, 3, 4, 5]

/-- The record of a unit. -/
def toRecord (d : FileDescriptor) : Record :=
  Record.optional 1 .text d.name? ++ Record.optional 2 .text d.package? ++
    d.dependencies.map (fun s => (3, .text s)) ++
    d.messages.map (fun m => (4, .record m.toRecord)) ++
    d.enums.map (fun e => (5, .record e.toRecord)) ++ d.carried

/-- Reads a unit. -/
def decode (bytes : Bytes) : Except WireFault FileDescriptor :=
  (Record.decode .unit bytes).map ofRecord

/-- The bytes of a unit. -/
def encode (d : FileDescriptor) : Bytes := Record.encode d.toRecord

/-- Reads a set of units. -/
def decodeSet (bytes : Bytes) : Except WireFault (List FileDescriptor) :=
  (Record.decode .unitSet bytes).map fun r => (r.records 1).map ofRecord

end FileDescriptor

end CellFilter
