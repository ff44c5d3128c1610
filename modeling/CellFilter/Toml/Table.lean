import CellFilter.Toml.Value

/-!
# Tables of a document

A document is a sequence of statements that each open a table or put an entry into the open one.
The module keeps the rules on what may be opened or extended twice.  A table is opened by at most
one header, and a dotted key may go on building tables that only dotted keys have built, or that
stand on the way to a header.
-/

namespace CellFilter.Toml

/-- How a table came to be. -/
inductive Origin where
  /-- A header opened it. -/
  | header
  /-- It stands on the way to a table that a header opened. -/
  | implied
  /-- It stands on the way to an entry with a dotted key. -/
  | dotted
  deriving DecidableEq

/-- What stands at a key. -/
inductive Node where
  | value (v : Value)
  | table (origin : Origin) (entries : List (String × Node))
  /-- A table that occurs again and again, the latest occurrence first. -/
  | tables (occurrences : List (List (String × Node)))

/-- A line of a document. -/
inductive Statement where
  /-- A header that opens a table. -/
  | table (path : List String)
  /-- A header that opens one more occurrence of a table. -/
  | occurrence (path : List String)
  | entry (path : List String) (value : Value)

namespace Node

/-- The contents of a table. -/
abbrev Entries := List (String × Node)

/-- Changes the table at the end of a path.  Tables on the way are made where they are missing,
`dotted` says for which purpose; of a table that occurs again and again the latest one counts. -/
def change (dotted : Bool) (f : Origin → Entries → Option Entries) :
    List String → Origin → Entries → Option Entries
  | [], origin, entries => f origin entries
  | key :: path, _, entries => do
    let node ← match entries.lookup key with
      | none =>
        let origin := if dotted then Origin.dotted else Origin.implied
        (change dotted f path origin []).map (Node.table origin)
      | some (.value _) => none
      | some (.table origin inner) =>
        if dotted && origin = .header then none
        else (change dotted f path origin inner).map (Node.table origin)
      | some (.tables []) => none
      | some (.tables (latest :: earlier)) =>
        (change dotted f path .header latest).map fun e => Node.tables (e :: earlier)
    return assign key node entries

/-- Puts a value into a table under a dotted key.  The last table on the way must have been built
by dotted keys, and the last key must be new. -/
def put (path : List String) (v : Value) (entries : Entries) : Option Entries :=
  let way := path.dropLast
  change true (fun origin inner => do
    let key ← path.getLast?
    if (origin == .dotted) == way.isEmpty || (inner.lookup key).isSome then none
    else some (assign key (.value v) inner)) way .header entries

/-- Opens the table at a path. -/
def openTable (path : List String) (root : Entries) : Option Entries :=
  change false (fun _ inner => do
    let key ← path.getLast?
    match inner.lookup key with
    | none => some (assign key (.table .header []) inner)
    | some (.table .implied held) => some (assign key (.table .header held) inner)
    | some _ => none) path.dropLast .header root

/-- Opens one more occurrence of the table at a path. -/
def openOccurrence (path : List String) (root : Entries) : Option Entries :=
  change false (fun _ inner => do
    let key ← path.getLast?
    match inner.lookup key with
    | none => some (assign key (.tables [[]]) inner)
    | some (.tables held) => some (assign key (.tables ([] :: held)) inner)
    | some _ => none) path.dropLast .header root

/-- The document that statements describe; `here` is the path of the open table. -/
def build (here : List String) (root : Entries) : List Statement → Option Entries
  | [] => some root
  | .table path :: rest => do build path (← openTable path root) rest
  | .occurrence path :: rest => do build path (← openOccurrence path root) rest
  | .entry path v :: rest => do
    build here (← change false (fun _ inner => put path v inner) here .header root) rest

mutual

/-- The value at a key. -/
def toValue : Node → Value
  | .value v => v
  | .table _ entries => .table (toValues entries)
  | .tables occurrences => .array (toTables occurrences).reverse

/-- The values of a table. -/
def toValues : List (String × Node) → List (String × Value)
  | [] => []
  | (key, node) :: rest => (key, toValue node) :: toValues rest

/-- The tables of a sequence, in the same order. -/
def toTables : List (List (String × Node)) → List Value
  | [] => []
  | entries :: rest => .table (toValues entries) :: toTables rest

end

end Node

end CellFilter.Toml
