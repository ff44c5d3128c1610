import CellFilter.Catalog.Memo
import CellFilter.CommandLine.Help
import CellFilter.Config.Load
import CellFilter.Discovery
import CellFilter.Schema.Summary

/-!
# Running commands

A command reads the configuration first, does its work on the machine, and ends with what it has
printed.  A failure is told on the error channel; what was printed before it stays.
-/

namespace CellFilter.CommandLine

/-- Why a command failed. -/
inductive Failure where
  | configuration (fault : ConfigFault)
  | filter (error : FilterError)
  | reading (path : String) (fault : FileFault)
  | writing (path : String) (fault : FileFault)
  | saving (path : String) (fault : FileFault)
  | unwritable (reason : Unwritable)
  /-- The configuration to be saved at a path has no written form. -/
  | unwritableAt (path : String) (reason : Unwritable)

/-- The wording of a failure. -/
def Failure.message : Failure → String
  | .configuration fault => s!"loading configuration: {fault.message}"
  | .filter error => error.message
  | .reading path fault => s!"reading {path}: {fault.message}"
  | .writing path fault => s!"writing {path}: {fault.message}"
  | .saving path fault => s!"saving configuration to {path}: {fault.message}"
  | .unwritable reason => reason.message
  | .unwritableAt path reason => s!"saving configuration to {path}: {reason.message}"

/-- What a command printed, and why it failed if it did. -/
structure Report where
  printed : String
  failure? : Option Failure := none

/-- What a process leaves behind. -/
structure Outcome where
  code : Nat
  printed : String
  complaint : String
  deriving DecidableEq, Repr

/-- The outcome of a report. -/
def Report.outcome (report : Report) : Outcome :=
  match report.failure? with
  | none => ⟨0, report.printed, ""⟩
  | some failure => ⟨1, report.printed, s!"Error: {failure.message}\n"⟩

/-- The report of a command that printed nothing before it failed. -/
def Report.ofExcept : Except Failure Report → Report
  | .ok report => report
  | .error failure => ⟨"", some failure⟩

variable {m : Type → Type} [Monad m] [Machine m]

/-- The registry of the resources that a configuration tells of. -/
def registry (config : Config) : m (Except Failure MemoRegistry) := do
  let found ← Discovery.inDirectories config.discovery.roots config.discovery.pattern
  return (found.mapError .filter).map fun resources =>
    .ofResources resources config.codec.compressionLevel

/-- What is printed about the types of a registry. -/
def listTypes (registry : MemoRegistry) : String :=
  let ((names, digest), _) := (do
    return (← MemoRegistry.typeNames, ← MemoRegistry.digest) : WithMemo _).run registry
  String.join (names.map (· ++ "\n")) ++ s!"\n{names.length} types, bundle {digest}\n"

/-- Encodes the schema of a type, and writes the payload to a file if one is given. -/
def runPayload (registry : MemoRegistry) (typeName : String) (output? : Option String) :
    m Report := do
  match (MemoRegistry.encoded typeName).run registry with
  | (.error e, _) => return ⟨"", some (.filter e)⟩
  | (.ok encoded, _) =>
    let printed := s!"Type:  {typeName}\nBytes: {encoded.payload.length}\n" ++
      s!"Hash:  {encoded.hash.text}\n"
    match output? with
    | none => return ⟨printed, none⟩
    | some path =>
      match ← Machine.writeFile path encoded.payload with
      | .ok _ => return ⟨printed ++ s!"Wrote {path}\n", none⟩
      | .error fault => return ⟨printed, some (.writing path fault)⟩

/-- Describes the schema in a payload. -/
def runInspect (path : String) : m Report := do
  match ← Machine.readFile path with
  | .error fault => return ⟨"", some (.reading path fault)⟩
  | .ok payload =>
    match Payload.decode payload with
    | .error e => return ⟨"", some (.filter e)⟩
    | .ok schema => return ⟨schema.summary.json.render 0 ++ "\n", none⟩

/-- Shows a configuration, or saves it to a file if one is given. -/
def runConfig (config : Config) (save? : Option String) : m Report := do
  match config.render, save? with
  | .ok text, none => return ⟨text ++ "\n", none⟩
  | .error reason, none => return ⟨"", some (.unwritable reason)⟩
  | .error reason, some path => return ⟨"", some (.unwritableAt path reason)⟩
  | .ok text, some path =>
    match ← Machine.writeFile path (Utf8.encode text) with
    | .ok _ => return ⟨s!"Saved configuration to {path}\n", none⟩
    | .error fault => return ⟨"", some (.saving path fault)⟩

/-- Runs a command under a configuration. -/
def Command.run (config : Config) : Command → m Report
  | .types => do return .ofExcept ((← registry config).map fun r => ⟨listTypes r, none⟩)
  | .payload typeName output? => do
    match ← registry config with
    | .error failure => return ⟨"", some failure⟩
    | .ok r => runPayload r typeName output?
  | .inspect path => runInspect path
  | .config save? => runConfig config save?

/-- Runs an invocation.  Directories given with it take the place of the configured ones. -/
def Invocation.run (invocation : Invocation) : m Report := do
  match ← Config.load invocation.config? with
  | .error fault => return ⟨"", some (.configuration fault)⟩
  | .ok config =>
    let config := if invocation.roots.isEmpty then config
      else { config with discovery := { config.discovery with roots := invocation.roots } }
    invocation.command.run config

/-- Runs the command that arguments ask for. -/
def run (arguments : List String) : m Outcome := do
  match Invocation.ofArguments arguments with
  | .ok invocation => return (← invocation.run).outcome
  | .error (.help topic?) => return ⟨0, helpText topic?, ""⟩
  | .error .misuse => return ⟨2, "", helpText none⟩

end CellFilter.CommandLine
