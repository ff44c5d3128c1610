import CellFilter.Digest.Content

/-!
# Schema keys

A schema is known by the name of its message and the hash of its payload.
-/

namespace CellFilter

/-- What a schema is known by. -/
structure SchemaKey where
  name : String
  hash : ContentHash
  deriving DecidableEq, Repr

namespace SchemaKey

/-- A key as it is printed: the name, then the digits of the hash. -/
def text (key : SchemaKey) : String := key.name ++ "@" ++ key.hash.text

end SchemaKey

end CellFilter
