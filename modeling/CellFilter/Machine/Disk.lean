import CellFilter.Machine.Basic

/-!
# Described machines

A disk is given by its files; a directory exists as long as a file stands below it.  A path is
walked name by name, every name but the last of which must belong to a directory.
-/

namespace CellFilter

/-- A machine without links and access rights. -/
structure Disk where
  /-- The files with the names that lead to them from the root. -/
  files : List (List String × Bytes)
  /-- The directory that relative paths start from. -/
  workingDirectory : List String
  environment : List (String × String)

namespace Disk

variable (disk : Disk)

/-- Whether a place is a directory. -/
def isDirectory (place : List String) : Bool :=
  place.isEmpty || place == disk.workingDirectory ||
    disk.files.any fun f => place.isPrefixOf f.1 && place != f.1

/-- The place that names lead to from a directory; nothing is said about what stands there. -/
def walk (here : List String) : List String → Except FileFault (List String)
  | [] => .ok here
  | "" :: rest => walk here rest
  | "." :: rest => walk here rest
  | ".." :: rest => walk here.dropLast rest
  | name :: rest =>
    let place := here ++ [name]
    if rest.isEmpty || disk.isDirectory place then walk place rest
    else if (disk.files.lookup place).isSome then .error .notADirectory
    else .error .notFound

/-- The directory that a path starts from. -/
def start (path : String) : List String :=
  if path.startsWith "/" then [] else disk.workingDirectory

/-- The place that a path leads to. -/
def place (path : String) : Except FileFault (List String) :=
  if path.isEmpty then .error .notFound else disk.walk (disk.start path) (path.splitOn "/")

/-- The contents of a file. -/
def read (path : String) : Except FileFault Bytes := do
  let place ← disk.place path
  match disk.files.lookup place with
  | some contents => return contents
  | none => throw (if disk.isDirectory place then .isADirectory else .notFound)

/-- The contents of the files after one of them was replaced or added. -/
def store (place : List String) (contents : Bytes) :
    List (List String × Bytes) → List (List String × Bytes)
  | [] => [(place, contents)]
  | file :: rest =>
    if file.1 == place then (place, contents) :: rest else file :: store place contents rest

/-- The disk after a file was replaced or added.  Its directory must be there, and a path with a
slash at the end can only be one. -/
def write (path : String) (contents : Bytes) : Except FileFault Disk := do
  let names := path.splitOn "/"
  let kept := (names.reverse.dropWhile (· == "")).reverse
  match kept.getLast? with
  | none => throw (if path.isEmpty then .notFound else .isADirectory)
  | some name =>
    let above ← disk.walk (disk.start path) (kept.dropLast ++ [""])
    let place := above ++ [name]
    if kept.length < names.length || [".", ".."].contains name || disk.isDirectory place then
      throw .isADirectory
    else return { disk with files := store place contents disk.files }

/-- The files below a path, by the names that lead to them from there. -/
def below (path : String) : List (List String) :=
  match disk.place path with
  | .error _ => []
  | .ok place => disk.files.filterMap fun f =>
    if place.isPrefixOf f.1 then some (f.1.drop place.length) else none

/-- A disk is a machine whose state it is. -/
instance : Machine (StateM Disk) where
  environment := do return (← get).environment
  readFile path := do return (← get).read path
  writeFile path contents := do
    match (← get).write path contents with
    | .ok disk => set disk; return .ok ()
    | .error fault => return .error fault
  filesBelow path := do return (← get).below path

end Disk

end CellFilter
