import CellFilter.Schema.Basic

/-!
# Standalone units

A message that refers to no other type can travel alone.  Its unit is stripped of everything but
the message, and a nested message is lifted to the outermost level.
-/

namespace CellFilter

namespace MessageDescriptor

/-- A message without the types declared inside it. -/
def alone (m : MessageDescriptor) : MessageDescriptor := { m with nested := [], enums := [] }

end MessageDescriptor

namespace Schema

/-- The name that the message has in its standalone unit. -/
def liftedName (s : Schema) : String := qualify s.file.package s.declaration.name

/-- The numbers of the fields of a unit that a standalone unit keeps beside its name and package:
its options and its dialect. -/
def keptUnitFields : List Nat := [8, 12]

/-- The unit that declares the message alone. -/
def standalone (s : Schema) : FileDescriptor where
  name? := s.file.name?
  package? := s.file.package?
  dependencies := []
  messages := [s.declaration.alone]
  enums := []
  carried := Record.only s.file.carried keptUnitFields

end Schema

end CellFilter
