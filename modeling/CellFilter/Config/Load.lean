import CellFilter.Config.Reading
import CellFilter.Discovery
import CellFilter.Text.Utf8
import CellFilter.Toml.Reader

/-!
# Loading the configuration

The layers of a configuration are, from the first to the last: three files of the working
directory, the file of the user, a file that was asked for by name, and the environment.  A file
that is not there is no layer, unless it was asked for.
-/

namespace CellFilter

/-- Why no configuration could be loaded. -/
inductive ConfigFault where
  | missingFile (name : String)
  | malformedFile (path : String)
  | unusableSetting
  deriving DecidableEq, Repr

/-- The wording of a fault. -/
def ConfigFault.message : ConfigFault → String
  | .missingFile name => s!"configuration file {Quoted.showText name} not found"
  | .malformedFile path => s!"configuration file {Quoted.showText path} is malformed"
  | .unusableSetting => "a setting has a value of the wrong kind"

namespace Config

/-- The ending of the names of configuration files. -/
def fileEnding : String := ".toml"

/-- Whether a file of this path is a configuration file.  The ending alone is no name. -/
def isConfigFile (path : String) : Bool :=
  let name := Discovery.fileName path
  name.endsWith fileEnding && name != fileEnding

/-- The configuration files of the working directory. -/
def localFiles : List String := ["filter.toml", ".filter.toml", "config/filter.toml"]

/-- The directory of the user's configuration files, where the environment tells it.  A relative
directory does not count, nor does an empty home. -/
def userDirectory? (environment : List (String × String)) : Option String :=
  match (environment.lookup "XDG_CONFIG_HOME").filter (·.startsWith "/") with
  | some directory => some directory
  | none => ((environment.lookup "HOME").filter (!·.isEmpty)).map (· ++ "/.config")

/-- The configuration file of the user. -/
def userFile? (environment : List (String × String)) : Option String :=
  (userDirectory? environment).map (· ++ "/proto-filter/filter.toml")

variable {m : Type → Type} [Monad m] [Machine m]

/-- The path and the contents of a configuration file that is there, either under its own name or
with the ending appended. -/
def find? (name : String) : m (Option (String × Bytes)) := do
  match ← Machine.readFile name with
  | .ok contents => return if isConfigFile name then some (name, contents) else none
  | .error _ =>
    let path := name ++ fileEnding
    match ← Machine.readFile path with
    | .ok contents => return some (path, contents)
    | .error _ => return none

/-- Puts the layers of files over settings. -/
def readFiles (required : Bool) (settings : Settings) :
    List String → m (Except ConfigFault Settings)
  | [] => return .ok settings
  | name :: rest => do
    match ← find? name with
    | none =>
      if required then return .error (.missingFile name) else readFiles required settings rest
    | some (path, contents) =>
      match Toml.read? (Utf8.decodeLossy contents) with
      | none => return .error (.malformedFile path)
      | some layer => readFiles required (overlay settings layer) rest

/-- Loads the configuration; `path?` is the file that was asked for. -/
def load (path? : Option String) : m (Except ConfigFault Config) := do
  let environment ← Machine.environment
  match ← readFiles false [] (localFiles ++ (userFile? environment).toList) with
  | .error fault => return .error fault
  | .ok standard =>
    match ← readFiles true standard path?.toList with
    | .error fault => return .error fault
    | .ok settings =>
      match ofSettings? (overlay settings (ofEnvironment environment)) with
      | some config => return .ok config
      | none => return .error .unusableSetting

end Config

end CellFilter
