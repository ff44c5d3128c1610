import CellFilter.Catalog.Basic
import CellFilter.Machine.Basic
import CellFilter.Pattern.Parser

/-!
# Discovery of descriptor resources

Descriptor resources are the files whose names match a pattern.  They are looked for below given
directories, one directory after the other, or in a collection of files at hand.  The order does not
depend on the machine: below a directory the files come in the order of their paths, name by name.
-/

namespace CellFilter

namespace Discovery

/-- The pattern of file names. -/
def pattern (text : String) : Except FilterError Pattern.Expr :=
  match Pattern.Expr.parse? text with
  | some pattern => .ok pattern
  | none => .error .invalidPattern

/-- The path of names below a directory. -/
def join (directory : String) (names : List String) : String :=
  names.foldl (fun path name => if path.endsWith "/" then path ++ name else path ++ "/" ++ name)
    directory

/-- The last name of a path. -/
def fileName (path : String) : String := (path.splitOn "/").getLast?.getD ""

/-- Whether a pattern occurs in the last name of a path. -/
def isNamed (pattern : Pattern.Expr) (path : String) : Bool :=
  pattern.occursIn (fileName path).toList

/-- Whether a path comes before another or is the same, name by name in the order of bytes. -/
def inOrder : List String → List String → Bool
  | [], _ => true
  | _ :: _, [] => false
  | a :: as, b :: bs =>
    match Scalar.compareText a b with
    | .lt => true
    | .eq => inOrder as bs
    | .gt => false

/-- The paths below a directory whose last name matches a pattern, in order. -/
def matching (pattern : Pattern.Expr) (directory : String) (below : List (List String)) :
    List String :=
  ((below.mergeSort inOrder).map (join directory)).filter (isNamed pattern)

variable {m : Type → Type} [Monad m] [Machine m]

/-- The resources at paths; a file that cannot be read is passed over. -/
def readAll : List String → m (List Resource)
  | [] => return []
  | path :: rest => do
    let first ← Machine.readFile path
    let others ← readAll rest
    match first with
    | .ok bytes => return ⟨path, bytes⟩ :: others
    | .error _ => return others

/-- The resources below directories whose names match a pattern. -/
def below (pattern : Pattern.Expr) : List String → m (List Resource)
  | [] => return []
  | directory :: rest => do
    let files ← Machine.filesBelow directory
    let first ← readAll (matching pattern directory files)
    return first ++ (← below pattern rest)

/-- The resources below directories whose names match the pattern of a text. -/
def inDirectories (directories : List String) (patternText : String) :
    m (Except FilterError (List Resource)) := do
  match pattern patternText with
  | .ok p => return .ok (← below p directories)
  | .error e => return .error e

/-- Of resources at hand those whose names match the pattern of a text, in the order of their
paths. -/
def amongst (files : List Resource) (patternText : String) :
    Except FilterError (List Resource) := do
  let p ← pattern patternText
  let found := files.filter fun file => isNamed p file.name
  return found.mergeSort fun a b => Scalar.compareText a.name b.name != .gt

end Discovery

end CellFilter
