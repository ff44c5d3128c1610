import CellFilter.Digest.Content
import CellFilter.Payload.Basic

/-!
# Catalogs

A catalog holds every message type that a sequence of descriptor resources declares.  Each resource
is a set of units and has a pool of its own.  A resource that cannot be read is passed over, and of
several declarations of a name the first one counts.
-/

namespace CellFilter

/-- The bytes of a set of units, and where they come from. -/
structure Resource where
  name : String
  bytes : Bytes
  deriving DecidableEq, Repr

/-- The pool of the units in a resource. -/
def Resource.pool (resource : Resource) : Except FilterError SchemaPool := do
  let units ← (FileDescriptor.decodeSet resource.bytes).mapError .undecodable
  SchemaPool.empty.addFiles (← dependencyOrder units)

/-- Every known message type. -/
structure Catalog where
  pools : List SchemaPool
  /-- The types with the places of their pools, the first declaration of a name first. -/
  types : List (String × Nat)
  digest : String

/-- A schema of a catalog, with the place of its pool. -/
structure CatalogEntry where
  pool : Nat
  schema : Schema

/-- A payload with its hash. -/
structure EncodedSchema where
  payload : Bytes
  hash : ContentHash
  deriving DecidableEq

namespace Catalog

/-- The names of pools, each name with the place of the pool, starting at `place`. -/
def declaredTypes (place : Nat) : List SchemaPool → List (String × Nat)
  | [] => []
  | pool :: rest => pool.messageNames.map (fun name => (name, place)) ++
      declaredTypes (place + 1) rest

/-- The catalog of a sequence of resources. -/
def ofResources (resources : List Resource) : Catalog :=
  let pools := resources.filterMap fun resource => resource.pool.toOption
  { pools
    types := declaredTypes 0 pools
    digest := Bundle.digest (resources.map Resource.bytes) }

/-- The names of all types, each once, in the order of their bytes. -/
def typeNames (catalog : Catalog) : List String :=
  let sorted := (catalog.types.map Prod.fst).mergeSort fun a b => Scalar.compareText a b != .gt
  sorted.eraseReps

/-- The schema of a name; dots in front do not count. -/
def find (catalog : Catalog) (name : String) : Except FilterError CatalogEntry :=
  let name := Schema.trimName name
  let entry? := do
    let place ← catalog.types.lookup name
    let pool ← catalog.pools[place]?
    let schema ← Schema.ofPool? pool name
    return ⟨place, schema⟩
  match entry? with
  | some entry => .ok entry
  | none => .error (.schemaNotFound name)

/-- The payload of a name, compressed at a level, and its hash. -/
def encoded (catalog : Catalog) (level : Nat) (name : String) :
    Except FilterError EncodedSchema := do
  let payload ← Payload.encode level (← catalog.find name).schema
  return ⟨payload, .of payload⟩

end Catalog

end CellFilter
