import CellFilter.Cache.Key
import CellFilter.Payload.Basic

/-!
# The schema cache

A cache keeps every schema that it has rebuilt from a payload, under its key.  A hit is trusted: the
payload that comes with it is not looked at.  A payload that cannot be decoded leaves no trace.
-/

namespace CellFilter

/-- A schema in a cache.  Each decoded payload yields a handle of its own number. -/
structure SchemaHandle where
  number : Nat
  schema : Schema

/-- Rebuilt schemas by their keys. -/
structure SchemaCache where
  entries : List (SchemaKey × SchemaHandle)
  /-- How many payloads were decoded. -/
  decoded : Nat

/-- A computation that may fail and that keeps the cache when it does. -/
abbrev WithCache := ExceptT FilterError (StateM SchemaCache)

namespace SchemaCache

/-- The cache without any schema. -/
def empty : SchemaCache := ⟨[], 0⟩

/-- The schema under a key. -/
def get? (cache : SchemaCache) (key : SchemaKey) : Option SchemaHandle := cache.entries.lookup key

/-- How many schemas are kept. -/
def size (cache : SchemaCache) : Nat := cache.entries.length

/-- Forgets every schema. -/
def clear (cache : SchemaCache) : SchemaCache := { cache with entries := [] }

/-- Keeps a schema that was just decoded. -/
def insert (cache : SchemaCache) (key : SchemaKey) (schema : Schema) : SchemaCache :=
  ⟨(key, ⟨cache.decoded, schema⟩) :: cache.entries, cache.decoded + 1⟩

/-- The schema under a key; on a miss it is decoded from the payload, which must not be missing or
empty. -/
def resolve (key : SchemaKey) (payload? : Option Bytes) : WithCache SchemaHandle := do
  let cache ← get
  match cache.get? key with
  | some handle => return handle
  | none =>
    match payload?.filter (fun p => !p.isEmpty) with
    | none => throw (.missingPayload key.name)
    | some payload =>
      match Payload.decode payload with
      | .error e => throw e
      | .ok schema =>
        set (cache.insert key schema)
        return ⟨cache.decoded, schema⟩

end SchemaCache

end CellFilter
