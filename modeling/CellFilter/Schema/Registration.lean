import CellFilter.Schema.Pool

/-!
# Adding a unit in place

A pool that is changed in place first takes in the types of a unit one by one, then the fields of
one message after the other.  A step that fails leaves the pool as the steps before it made it, and
all of that is then taken back.
-/

namespace CellFilter

/-- Runs steps one after the other; a step that fails leaves its state behind. -/
def runSteps {σ α ε : Type} (step : σ → α → Except ε σ) : σ → List α → σ × Except ε Unit
  | state, [] => (state, .ok ())
  | state, a :: rest =>
    match step state a with
    | .ok next => runSteps step next rest
    | .error e => (state, .error e)

/-- The places of the fields by their numbers, a later field in front of an earlier one. -/
def fieldPlaces (fields : List Field) : List (Nat × Nat) :=
  (fields.zipIdx.map fun entry => (entry.1.number, entry.2)).reverse

/-- A unit on its way into a pool. -/
structure Registration where
  pool : SchemaPool
  /-- The names that were claimed for the unit. -/
  added : List String
  /-- The places of the messages whose fields are still missing, with their declarations. -/
  pending : List (Nat × MessageDescriptor)

namespace Registration

/-- Claims the name of a declared type and adds the type. -/
def claim (r : Registration) (d : Declaration) : Except FilterError Registration := do
  let next ← r.pool.declare d
  return {
    pool := next
    added := r.added ++ [d.fullName]
    pending := match d with
      | .message _ _ descriptor => r.pending ++ [(r.pool.messages.length, descriptor)]
      | .enum _ _ => r.pending }

/-- Gives a message its fields. -/
def complete (r : Registration) (entry : Nat × MessageDescriptor) :
    Except FilterError Registration := do
  let scope := (r.pool.messages[entry.1]?.map MessageType.fullName).getD ""
  let fields ← entry.2.fields.mapM (r.pool.resolveField scope)
  return { r with pool := { r.pool with
    messages := r.pool.messages.modify entry.1 fun m => { m with fields } } }

/-- Adds what a unit declares, as far as that goes. -/
def ofFile (pool : SchemaPool) (file : FileDescriptor) : Registration × Except FilterError Unit :=
  match runSteps claim ⟨pool, [], []⟩ (Declaration.ofFile file) with
  | (r, .ok ()) => runSteps complete r r.pending
  | (r, .error e) => (r, .error e)

/-- Takes back what was added to a pool that had so many messages and enumerations. -/
def undo (r : Registration) (messages enums : Nat) : SchemaPool :=
  { r.pool with
    messages := r.pool.messages.take messages
    enums := r.pool.enums.take enums
    types := r.pool.types.filter fun entry => !r.added.contains entry.1 }

end Registration

/-- Adds a unit in place: the pool that is left and whether the unit is in it. -/
def SchemaPool.addInPlace (pool : SchemaPool) (file : FileDescriptor) :
    SchemaPool × Except FilterError Unit :=
  if pool.containsFile file.name then (pool, .ok ())
  else match file.dependencies.find? fun d => !pool.containsFile d with
    | some missing => (pool, .error (.undeclaredDependency file.name missing))
    | none =>
      match Registration.ofFile pool file with
      | (r, .ok ()) => ({ r.pool with files := pool.files ++ [file] }, .ok ())
      | (r, .error e) => (r.undo pool.messages.length pool.enums.length, .error e)

/-- The pool that is left of a pool after units were added in place, with or without success. -/
def SchemaPool.afterCalls (pool : SchemaPool) (files : List FileDescriptor) : SchemaPool :=
  files.foldl (fun pool file => (pool.addInPlace file).1) pool

end CellFilter
