import CellFilter.Bytes

/-!
# Machines

What the command line needs of the machine it runs on: its environment, its files and the names of
the files below a directory.  Everything above is written against this interface, so that it runs on
a real machine and on a described one alike.
-/

namespace CellFilter

/-- Why a file could not be read or written. -/
inductive FileFault where
  | notFound
  | notADirectory
  | isADirectory
  /-- A fault that only a real machine has, with its wording. -/
  | other (text : String)
  deriving DecidableEq, Repr

/-- The wording of a fault. -/
def FileFault.message : FileFault → String
  | .notFound => "No such file or directory (os error 2)"
  | .notADirectory => "Not a directory (os error 20)"
  | .isADirectory => "Is a directory (os error 21)"
  | .other text => text

/-- The services of a machine. -/
class Machine (m : Type → Type) where
  /-- The variables of the environment with their values. -/
  environment : m (List (String × String))
  /-- The contents of a file. -/
  readFile (path : String) : m (Except FileFault Bytes)
  /-- Replaces or creates a file. -/
  writeFile (path : String) (contents : Bytes) : m (Except FileFault Unit)
  /-- The files below a directory, each as the names that lead to it, in any order.  A file is
  below itself, and below a path that does not exist there is nothing to tell of. -/
  filesBelow (path : String) : m (List (List String))

end CellFilter
