/-!
# Depth-first traversal

A walk over names from each name to the names next to it.  A name is discovered when the walk first
comes to it and finished when everything next to it is finished.
-/

namespace CellFilter

/-- What a walk has seen, the latest name first. -/
structure Walk where
  discovered : List String
  finished : List String

namespace Walk

/-- The walk that has seen nothing. -/
def empty : Walk := ⟨[], []⟩

/-- Walks on from a name, through at most `depth` names at a time; for that the number of names
there are is enough. -/
def visit (next : String → List String) : (depth : Nat) → Walk → String → Walk
  | 0, walk, _ => walk
  | depth + 1, walk, name =>
    if walk.discovered.contains name then walk
    else
      let entered : Walk := { walk with discovered := name :: walk.discovered }
      let left := (next name).foldl (visit next depth) entered
      { left with finished := name :: left.finished }

/-- Walks from each name in turn. -/
def ofStarts (next : String → List String) (depth : Nat) (starts : List String) : Walk :=
  starts.foldl (visit next depth) empty

end Walk

end CellFilter
