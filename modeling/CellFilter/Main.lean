import CellFilter.CommandLine.Run

/-!
# The command

The services of the machine that the process runs on, and the entry point.  Nothing is decided here:
arguments go in, and what the run leaves behind is printed.
-/

namespace CellFilter

/-- The fault that an input or output error stands for.  An error number may come negated. -/
def FileFault.ofError : IO.Error → FileFault
  | .noFileOrDirectory .. => .notFound
  | .inappropriateType _ number details =>
    if number = 20 ∨ number = -20 then .notADirectory
    else if number = 21 ∨ number = -21 then .isADirectory
    else .other details
  | error => .other (toString error)

/-- Runs an action on files. -/
def tryFile {α : Type} (action : IO α) : IO (Except FileFault α) := do
  try return .ok (← action) catch error => return .error (.ofError error)

/-- The entry of a directory that a path names. -/
def entryAt (path : String) : IO.FS.DirEntry := ⟨path, ""⟩

/-- The files below a path.  Links are not followed, and what cannot be read is passed over. -/
partial def filesBelow (path : String) : IO (List (List String)) := do
  try
    let place := (entryAt path).root
    match (← place.symlinkMetadata).type with
    | .file => return [[]]
    | .dir =>
      let mut found := []
      for entry in ← place.readDir do
        for names in ← filesBelow (path ++ "/" ++ entry.fileName) do
          found := (entry.fileName :: names) :: found
      return found
    | _ => return []
  catch _ => return []

/-- The variables in the block of bytes that holds the environment of a process. -/
def variablesOf (block : String) : List (String × String) :=
  (block.splitOn "\x00").filterMap fun line =>
    match line.splitOn "=" with
    | name :: first :: others => some (name, "=".intercalate (first :: others))
    | _ => none

/-- The machine that the process runs on. -/
instance : Machine IO where
  environment := do
    match ← tryFile (IO.FS.readBinFile "/proc/self/environ") with
    | .ok block => return variablesOf (Utf8.decodeLossy block.toList)
    | .error _ => return []
  readFile path := tryFile do return (← IO.FS.readBinFile path).toList
  writeFile path contents := tryFile (IO.FS.writeBinFile path ⟨contents.toArray⟩)
  filesBelow path := if path.isEmpty then return [] else filesBelow path

end CellFilter

/-- Runs the command with the arguments of the process. -/
def main (arguments : List String) : IO UInt32 := do
  let outcome ← CellFilter.CommandLine.run (m := IO) arguments
  (← IO.getStdout).putStr outcome.printed
  (← IO.getStderr).putStr outcome.complaint
  return outcome.code.toUInt32
