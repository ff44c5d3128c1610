import CellFilter.Gzip.Member
import CellFilter.Payload.Order
import CellFilter.Payload.Standalone
import CellFilter.Wire.Reader

/-!
# Schema payloads

A payload holds what is needed to build the schema of one message anew: the name of the message and
the units it rests on, each followed by the units that it depends on.  A unit that was written
before is only named.  All of it is compressed.

    payload = version target unit
    unit    = name descriptor count unit*
-/

namespace CellFilter

/-- A unit with its dependencies as a payload lays them out. -/
inductive UnitTree where
  | declared (unit : FileDescriptor) (dependencies : List UnitTree)
  /-- A unit that stands further to the front. -/
  | reference (name : String)

namespace UnitTree

mutual

/-- The bytes of a unit and what it depends on. -/
def encode : UnitTree → Bytes
  | .declared unit dependencies =>
    Frame.putText unit.name ++ Frame.putBytes unit.encode ++
      Varint.encode dependencies.length ++ encodeAll dependencies
  | .reference name => Frame.putText name ++ Frame.putBytes [] ++ Varint.encode 0

/-- The bytes of units one after the other. -/
def encodeAll : List UnitTree → Bytes
  | [] => []
  | tree :: rest => tree.encode ++ encodeAll rest

end

/-- The units that a unit of a pool depends on. -/
def directDependencies (pool : SchemaPool) (unit : FileDescriptor) :
    Except FilterError (List FileDescriptor) :=
  unit.dependencies.mapM fun name =>
    match pool.file? name with
    | some dependency => .ok dependency
    | none => .error (.undeclaredDependency unit.name name)

/-- Units by their places in a list of names; those that are not in it come last. -/
def sortByRank (order : List String) (units : List FileDescriptor) : List FileDescriptor :=
  units.mergeSort fun a b => order.idxOf a.name ≤ order.idxOf b.name

/-- Lays out a unit and what it depends on; the state is the names of the units laid out so far.
No chain of new units is longer than `depth`, the number of units in the pool. -/
def layOut (pool : SchemaPool) (order : List String) :
    (depth : Nat) → FileDescriptor → StateT (List String) (Except FilterError) UnitTree
  | 0, unit => return .reference unit.name
  | depth + 1, unit => do
    let known ← get
    if known.contains unit.name then return .reference unit.name
    set (unit.name :: known)
    let dependencies ← directDependencies pool unit
    let trees ← (sortByRank order dependencies).mapM (layOut pool order depth)
    return .declared unit trees

/-- Lays out a unit with everything it depends on. -/
def ofUnit (pool : SchemaPool) (unit : FileDescriptor) : Except FilterError UnitTree := do
  let closure ← pool.closure unit.name
  let order ← dependencyOrder closure
  let (tree, _) ← layOut pool (order.map FileDescriptor.name) (pool.files.length + 1) unit []
  return tree

end UnitTree

namespace Payload

/-- The version of the format. -/
def version : UInt8 := 1

/-- The uncompressed payload of a target and its unit. -/
def frame (target : String) (tree : UnitTree) : Bytes :=
  Frame.putByte version ++ Frame.putText target ++ tree.encode

/-- The uncompressed payload of a schema. -/
def body (s : Schema) : Except FilterError Bytes := do
  if s.isSelfContained then return frame s.liftedName (.declared s.standalone [])
  else
    let tree ← UnitTree.ofUnit s.pool s.file
    return frame s.fullName tree

/-- The payload of a schema, compressed at a level. -/
def encode (level : Nat) (s : Schema) : Except FilterError Bytes := do
  return Gzip.compress (← body s) level

/-- How many levels of units may be nested inside the outermost unit. -/
def maxDepth : Nat := 256

/-- Runs a step so many times, each time on what the last one left. -/
def iterate {σ : Type} (step : σ → Reader σ) : Nat → σ → Reader σ
  | 0, state => return state
  | n + 1, state => do iterate step n (← step state)

/-- Adds the descriptor of a unit to a pool; without a descriptor the unit has to be there. -/
def addUnit (pool : SchemaPool) (name : String) (descriptor : Bytes) :
    Except FilterError SchemaPool := do
  if descriptor.isEmpty then
    if pool.containsFile name then return pool
    else throw (.malformedPayload (.unitNotYetDefined name))
  else
    let unit ← (FileDescriptor.decode descriptor).mapError .undecodable
    if unit.name ≠ name then throw (.malformedPayload (.unitNameMismatch name unit.name))
    pool.addFile unit

/-- Reads a unit, adding what it depends on to the pool and then itself; so many levels of units,
itself included, may be entered.  Every unit takes at least three bytes. -/
def readUnit : (levels : Nat) → SchemaPool → Reader SchemaPool
  | 0, _ => throw (.malformedPayload .unitsNestedTooDeeply)
  | levels + 1, pool => do
    let name ← Frame.text
    let descriptor ← Frame.bytes
    let count ← Frame.varint
    let left ← Frame.remaining
    if left / 3 < count then throw (.malformedPayload (.tooManyDependencies name count))
    let pool ← iterate (readUnit levels) count pool
    addUnit pool name descriptor

/-- Reads an uncompressed payload: the target and the pool of its units. -/
def read : Reader (String × SchemaPool) := do
  let found ← Frame.byte
  if found ≠ version then throw (.unsupportedVersion found)
  let target ← Frame.text
  let pool ← readUnit (maxDepth + 1) .empty
  return (target, pool)

/-- The schema of an uncompressed payload. -/
def schemaOfBody (body : Bytes) : Except FilterError Schema := do
  let (target, pool) ← Frame.whole read .trailingAfterRootUnit body
  match Schema.ofPool? pool target with
  | some s => return s
  | none => throw (.malformedPayload (.undeclaredTarget target))

/-- Rebuilds the schema of a payload. -/
def decode (payload : Bytes) : Except FilterError Schema := do
  schemaOfBody (← Gzip.decompress payload)

end Payload

end CellFilter
