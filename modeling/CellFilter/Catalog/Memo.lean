import CellFilter.Catalog.Registry

/-!
# A registry with memos

What a registry has answered with is kept in two memos, one for schemas and one for payloads, each
under the name that was asked for without the dots in front.  A failure is not kept, and an answer
that was kept may be lost again.
-/

namespace CellFilter

/-- Where a predicate on a column that holds messages of a name starts. -/
def EncodedSchema.target (encoded : EncodedSchema) (name : String) (family qualifier : Bytes) :
    ColumnTarget where
  family
  qualifier
  key := ⟨Schema.trimName name, encoded.hash⟩
  payload? := some encoded.payload

/-- A registry with the answers that were kept. -/
structure MemoRegistry where
  registry : SchemaRegistry
  schemas : List (String × CatalogEntry)
  payloads : List (String × EncodedSchema)

/-- A question to a registry with memos. -/
abbrev WithMemo := StateM MemoRegistry

/-- One of the memos. -/
structure Memo (α : Type) where
  kept : MemoRegistry → List (String × α)
  keep : String → α → MemoRegistry → MemoRegistry

namespace Memo

/-- The schemas. -/
def schemas : Memo CatalogEntry where
  kept := MemoRegistry.schemas
  keep name entry memo := { memo with schemas := (name, entry) :: memo.schemas }

/-- The payloads. -/
def payloads : Memo EncodedSchema where
  kept := MemoRegistry.payloads
  keep name encoded memo := { memo with payloads := (name, encoded) :: memo.payloads }

/-- What is kept under a name, or else the answer to a question, kept unless it is a failure. -/
def getOr {α : Type} (memo : Memo α) (name : String)
    (question : WithMemo (Except FilterError α)) : WithMemo (Except FilterError α) := do
  match (memo.kept (← get)).lookup name with
  | some a => return .ok a
  | none =>
    match ← question with
    | .ok a =>
      modify (memo.keep name a)
      return .ok a
    | .error e => return .error e

end Memo

namespace MemoRegistry

/-- A registry that was not asked for anything yet. -/
def ofResources (resources : List Resource) (level : Nat) : MemoRegistry :=
  ⟨.ofResources resources level, [], []⟩

/-- The answer of the registry underneath. -/
def ask {α : Type} (question : WithRegistry α) : WithMemo α := do
  let memo ← get
  let (answer, registry) := question.run memo.registry
  set { memo with registry }
  return answer

/-- The names of all types, in the order of their bytes. -/
def typeNames : WithMemo (List String) := ask SchemaRegistry.typeNames

/-- The digest of all resources. -/
def digest : WithMemo String := ask SchemaRegistry.digest

/-- The schema of a name. -/
def find (name : String) : WithMemo (Except FilterError CatalogEntry) :=
  let name := Schema.trimName name
  Memo.schemas.getOr name (ask (SchemaRegistry.find name))

/-- The payload of a name and its hash. -/
def encoded (name : String) : WithMemo (Except FilterError EncodedSchema) :=
  let name := Schema.trimName name
  Memo.payloads.getOr name do
    let found ← find name
    let level := (← get).registry.level
    return do
      let payload ← Payload.encode level (← found).schema
      return ⟨payload, .of payload⟩

/-- The beginning of a predicate on a column that holds messages of a name. -/
def column (name : String) (family qualifier : Bytes) :
    WithMemo (Except FilterError ColumnTarget) := do
  return (← encoded name).map fun e => e.target name family qualifier

/-- Loses what is kept under some names. -/
def forget (schemas payloads : String → Bool) : WithMemo Unit := modify fun memo =>
  { memo with
    schemas := memo.schemas.filter fun kept => !schemas kept.1
    payloads := memo.payloads.filter fun kept => !payloads kept.1 }

end MemoRegistry

end CellFilter
