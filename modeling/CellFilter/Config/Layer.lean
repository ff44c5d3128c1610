import CellFilter.Decimal.Reader
import CellFilter.Text.LetterCase
import CellFilter.Toml.Value

/-!
# Layers of settings

Settings come from several sources.  Each source is a layer, and a later layer wins over an earlier
one key by key: tables are merged, any other value is replaced.  The case of a key does not count.
A key at the top of a layer may be a path of names with dots between them.
-/

namespace CellFilter.Config

open Toml (Value)

/-- A table of settings. -/
abbrev Settings := List (String × Value)

/-- The settings in a value; none if the value is not a table. -/
def settingsOf : Value → Settings
  | .table entries => entries
  | _ => []

mutual

/-- Sets one key of a table.  A table is merged into the table that stands there. -/
def set (key : String) (settings : Settings) : Value → Settings
  | .table incoming =>
    let held := (settings.lookup (LetterCase.lowercase key)).getD (.table [])
    let merged := if incoming.isEmpty then held else .table (setAll (settingsOf held) incoming)
    Toml.assign (LetterCase.lowercase key) merged settings
  | value => Toml.assign (LetterCase.lowercase key) value settings

/-- Sets many keys of a table. -/
def setAll (settings : Settings) : List (String × Value) → Settings
  | [] => settings
  | (key, value) :: rest => setAll (set key settings value) rest

end

/-- Whether a character may stand in a name of a path. -/
def isName (c : Char) : Bool := c.isAlphanum || ['_', '-', ' '].contains c

/-- The names of a path; a key that is no path is a single name. -/
def pathOf (key : String) : List String :=
  let names := key.splitOn "."
  if names.all fun n => !n.isEmpty && n.toList.all isName then names else [key]

/-- Sets the key at the end of a path.  The table that holds the key replaces any other value; a
value that is not a table further up blocks the way. -/
def setAt (value : Value) : List String → Settings → Settings
  | [], settings => settings
  | [key], settings => set key settings value
  | [parent, key], settings =>
    let name := LetterCase.lowercase parent
    let held := settingsOf ((settings.lookup name).getD (.table []))
    Toml.assign name (.table (set key held value)) settings
  | name :: rest, settings =>
    let name := LetterCase.lowercase name
    match settings.lookup name with
    | none => Toml.assign name (.table (setAt value rest [])) settings
    | some (.table held) => Toml.assign name (.table (setAt value rest held)) settings
    | some _ => settings

/-- Puts a layer over settings. -/
def overlay (settings : Settings) (layer : Settings) : Settings :=
  layer.foldl (fun settings entry => setAt entry.2 (pathOf entry.1) settings) settings

/-- The beginning, in lower case, of the names of environment variables that are settings. -/
def variablePrefix : String := "proto_filter__"

/-- The value of an environment variable: a truth value, a number, or else the text as it is. -/
def variableValue (text : String) : Value :=
  match LetterCase.lowercase text with
  | "true" => .boolean true
  | "false" => .boolean false
  | _ =>
    match Decimal.int64? text, Decimal.double? text with
    | some n, _ => .integer n.toInt
    | none, some x => .float x
    | none, none => .text text

/-- The layer that the environment is.  Two underscores in a name stand for a dot. -/
def ofEnvironment (environment : List (String × String)) : Settings :=
  environment.filterMap fun (name, text) =>
    let key := LetterCase.lowercase name
    if key.startsWith variablePrefix then
      some (".".intercalate (((key.drop variablePrefix.length).toString).splitOn "__"),
        variableValue text)
    else none

end CellFilter.Config
