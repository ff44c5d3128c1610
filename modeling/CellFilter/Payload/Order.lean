import CellFilter.Payload.Traversal
import CellFilter.Schema.Pool

/-!
# The order of units

Units are ordered so that each comes after the units it depends on.  Dependencies that are not
among the units do not count.  A walk from every unit to the units that depend on it finishes a unit
after all of these, so that the order in which units are finished, from the last to the first, is
the order asked for, unless units depend on each other in a circle.

The closure of a unit is the unit and everything it depends on, near or far.
-/

namespace CellFilter

namespace UnitOrder

/-- The names of units, each once. -/
def names (units : List FileDescriptor) : List String :=
  (units.map FileDescriptor.name).foldl
    (fun known name => if known.contains name then known else known ++ [name]) []

/-- The dependencies between listed units, as pairs of a dependency and the unit that has it, in the
order in which they are declared. -/
def edges (units : List FileDescriptor) : List (String × String) :=
  let listed := names units
  units.flatMap fun unit =>
    (unit.dependencies.filter fun d => listed.contains d).map fun d => (d, unit.name)

/-- The units that depend on a unit. -/
def dependents (edges : List (String × String)) (name : String) : List String :=
  (edges.filter fun e => e.1 == name).map Prod.snd

/-- The listed units that a unit depends on. -/
def dependencies (edges : List (String × String)) (name : String) : List String :=
  (edges.filter fun e => e.2 == name).map Prod.fst

/-- The first dependency that does not stand before its unit, given what was placed so far. -/
def firstMisplaced (edges : List (String × String)) (placed : List String) :
    List String → Option String
  | [] => none
  | name :: rest =>
    match (dependencies edges name).find? fun d => !placed.contains d with
    | some d => some d
    | none => firstMisplaced edges (name :: placed) rest

/-- The names in order, or the name of a unit that depends on itself, directly or by others. -/
def ofEdges (names : List String) (edges : List (String × String)) : Except String (List String) :=
  let walk := Walk.ofStarts (dependents edges) names.length names
  match walk.discovered.reverse.find? fun name => edges.contains (name, name) with
  | some name => .error name
  | none =>
    match firstMisplaced edges [] walk.finished with
    | some name => .error name
    | none => .ok walk.finished

end UnitOrder

/-- The units so that each comes after the units it depends on; of several units of a name only
the first one stays. -/
def dependencyOrder (units : List FileDescriptor) : Except FilterError (List FileDescriptor) :=
  match UnitOrder.ofEdges (UnitOrder.names units) (UnitOrder.edges units) with
  | .ok order => .ok (order.filterMap fun name => units.find? fun u => u.name == name)
  | .error name => .error (.dependencyCycle name)

namespace SchemaPool

/-- The names that a unit depends on; none for a unit that is not there. -/
def dependenciesOf (pool : SchemaPool) (name : String) : List String :=
  ((pool.file? name).map FileDescriptor.dependencies).getD []

/-- A unit and everything it depends on, the unit first. -/
def closure (pool : SchemaPool) (root : String) : Except FilterError (List FileDescriptor) :=
  let walk := Walk.ofStarts pool.dependenciesOf (pool.files.length + 1) [root]
  walk.discovered.reverse.mapM fun name =>
    match pool.file? name with
    | some unit => .ok unit
    | none => .error (.undeclaredDependency root name)

end SchemaPool

end CellFilter
