import CellFilter.Catalog.Basic
import CellFilter.Predicate.Basic

/-!
# The schema registry

The side that makes filters asks a registry for schemas, payloads and the beginnings of predicates.
The registry reads its resources when it is first asked and keeps the catalog from then on.
-/

namespace CellFilter

/-- A source of payloads: the resources, the level at which payloads are compressed, and the catalog
once it was asked for. -/
structure SchemaRegistry where
  resources : List Resource
  level : Nat
  catalog? : Option Catalog

/-- A question to a registry. -/
abbrev WithRegistry := StateM SchemaRegistry

namespace SchemaRegistry

/-- A registry that was not asked for anything yet. -/
def ofResources (resources : List Resource) (level : Nat) : SchemaRegistry :=
  ⟨resources, level, none⟩

/-- The catalog of the resources. -/
def catalog : WithRegistry Catalog := do
  let registry ← get
  match registry.catalog? with
  | some catalog => return catalog
  | none =>
    let catalog := Catalog.ofResources registry.resources
    set { registry with catalog? := some catalog }
    return catalog

/-- The names of all types, in the order of their bytes. -/
def typeNames : WithRegistry (List String) := do return (← catalog).typeNames

/-- The digest of all resources. -/
def digest : WithRegistry String := do return (← catalog).digest

/-- The schema of a name. -/
def find (name : String) : WithRegistry (Except FilterError CatalogEntry) := do
  return (← catalog).find name

/-- The payload of a name and its hash. -/
def encoded (name : String) : WithRegistry (Except FilterError EncodedSchema) := do
  let catalog ← catalog
  return catalog.encoded (← get).level name

/-- The beginning of a predicate on a column that holds messages of a name. -/
def column (name : String) (family qualifier : Bytes) :
    WithRegistry (Except FilterError ColumnTarget) := do
  let encoded ← encoded name
  return encoded.map fun e =>
    { family, qualifier, key := ⟨Schema.trimName name, e.hash⟩, payload? := some e.payload }

/-- The description of a registry for a developer. -/
def describe (registry : SchemaRegistry) : String :=
  let loaded := if registry.catalog?.isSome then "true" else "false"
  "SchemaRegistry \x7b codec: SchemaCodec \x7b level: " ++ toString registry.level ++
    " \x7d, catalog_loaded: " ++ loaded ++ " \x7d"

end SchemaRegistry

end CellFilter
