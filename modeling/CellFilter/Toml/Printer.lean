import CellFilter.Text.Quoted
import CellFilter.Toml.Value

/-!
# Writing documents

A document is written as a sequence of sections.  A text is written literally where that avoids
escapes and is possible at all, otherwise with escapes; one with line ends goes over many lines.  An
array of two or more elements has one element on a line.
-/

namespace CellFilter.Toml

/-- Whether a character needs an escape even in a literal text. -/
def needsEscape (c : Char) : Bool := (c < ' ' || c == '\x7f') && c != '\t' && c != '\n'

/-- The length of the longest run of single quotes; `run` of them stand right before. -/
def longestRun (run : Nat) : List Char → Nat
  | [] => run
  | c :: rest => if c == '\'' then longestRun (run + 1) rest else max run (longestRun 0 rest)

/-- Whether a text is written literally: it has something to escape, no control characters, and its
single quotes cannot be taken for closing ones. -/
def isLiteral (cs : List Char) : Bool :=
  cs.any (fun c => c == '"' || c == '\\') && !cs.any needsEscape &&
    longestRun 0 cs < 3 && cs.getLast? != some '\''

/-- How a character is written with escapes; a line feed stands for itself on many lines. -/
def escaped (manyLines : Bool) (c : Char) : List Char :=
  if c == '\x08' then ['\\', 'b']
  else if c == '\t' then ['\\', 't']
  else if c == '\n' then if manyLines then ['\n'] else ['\\', 'n']
  else if c == '\x0c' then ['\\', 'f']
  else if c == '\r' then ['\\', 'r']
  else if c == '"' then ['\\', '"']
  else if c == '\\' then ['\\', '\\']
  else if needsEscape c then ['\\', 'u'] ++ (Quoted.hexDigits 4 c.toNat).map Char.toUpper
  else [c]

/-- The written form of a text. -/
def showText (s : String) : String :=
  let cs := s.toList
  let manyLines := cs.contains '\n'
  if isLiteral cs then
    let fence := if manyLines || cs.contains '\'' then "'''" else "'"
    fence ++ (if manyLines then "\n" else "") ++ s ++ fence
  else
    let body := String.ofList (cs.flatMap (escaped manyLines))
    if manyLines then "\"\"\"\n" ++ body ++ "\"\"\"" else "\"" ++ body ++ "\""

/-- The written form of an array of texts. -/
def showTexts : List String → String
  | [] => "[]"
  | [one] => "[" ++ showText one ++ "]"
  | many => "[" ++ String.join (many.map fun s => "\n    " ++ showText s ++ ",") ++ "\n]"

/-- A line with a key and its written value. -/
def showEntry (key value : String) : String := key ++ " = " ++ value ++ "\n"

/-- A section: its header and its lines. -/
def showSection (name : String) (entries : List (String × String)) : String :=
  "[" ++ name ++ "]\n" ++ String.join (entries.map fun e => showEntry e.1 e.2)

/-- Sections with an empty line between them. -/
def showSections (sections : List (String × List (String × String))) : String :=
  "\n".intercalate (sections.map fun s => showSection s.1 s.2)

end CellFilter.Toml
