import CellFilter.Toml.Scan

/-!
# Texts of a document

There are four spellings: basic and literal, each on one line or, between triple quotes, on many.
A basic text has escapes, a literal one has none.  On many lines the line end right after the
opening quotes does not count, a line end is a line feed whatever its spelling, and one or two
quotes may stand inside or right before the closing ones.
-/

namespace CellFilter.Toml.Text

open Scan

/-- The character of so many hexadecimal digits. -/
def hexEscape (width : Nat) : Scan Char := do
  let digits := (← get).take width
  let n ← ofOption (digits.mapM Bytes.hexValue?)
  let code := n.foldl (fun n d => 16 * n + d) 0
  modify fun cs => cs.drop width
  if digits.length = width ∧ (code < 0xD800 ∨ (0xDFFF < code ∧ code < 0x110000)) then
    return Char.ofNat code
  else fail

/-- What stands after a backslash. -/
def escape : Scan Char := do
  match ← next with
  | 'b' => return '\x08'
  | 't' => return '\t'
  | 'n' => return '\n'
  | 'f' => return '\x0c'
  | 'r' => return '\r'
  | '"' => return '"'
  | '\\' => return '\\'
  | 'u' => hexEscape 4
  | 'U' => hexEscape 8
  | _ => fail

/-- Skips blanks and line ends as far as they go. -/
def skipLines : Scan Unit := do
  let _ ← many do
    blanks
    return if ← newline then some () else none

/-- A backslash at the end of a line swallows all blanks and line ends after it. -/
def lineContinuation : Scan Bool := fun cs =>
  match (do blanks; newline : Scan Bool) cs with
  | some (true, rest) => (do skipLines; return true : Scan Bool) rest
  | _ => some (false, cs)

/-- One piece of a text on one line; nothing at the closing quote. -/
def piece (quote : Char) (escapes : Bool) : Scan (Option (List Char)) := do
  let c ← next
  if c == quote then return none
  else if escapes && c == '\\' then return some [← escape]
  else if isVisible c then return some [c]
  else fail

/-- One piece of a text on many lines; nothing where three quotes come next. -/
def linesPiece (quote : Char) (escapes : Bool) : Scan (Option (List Char)) := do
  let quotes := (← get).takeWhile (· == quote)
  if 3 ≤ quotes.length then return none
  else if ← newline then return some ['\n']
  else
    let c ← next
    if escapes && c == '\\' then
      if ← lineContinuation then return some [] else return some [← escape]
    else if isVisible c then return some [c]
    else fail

/-- The closing quotes of a text on many lines, and the quotes before them that belong to it. -/
def linesEnd (quote : Char) : Scan (List Char) := do
  let quotes := (← get).takeWhile (· == quote)
  let inner := min (quotes.length - 3) 2
  modify fun cs => cs.drop (inner + 3)
  return List.replicate inner quote

/-- A text on many lines, after its opening quotes. -/
def lines (quote : Char) (escapes : Bool) : Scan (List Char) := do
  let _ ← newline
  let pieces ← many (linesPiece quote escapes)
  return pieces.flatten ++ (← linesEnd quote)

/-- A text on one line, after its opening quote. -/
def line (quote : Char) (escapes : Bool) : Scan (List Char) := do
  return (← many (piece quote escapes)).flatten

/-- The characters of a text of any spelling. -/
def anyChars : Scan (List Char) := do
  if ← accept "\"\"\"" then lines '"' true
  else if ← accept "\"" then line '"' true
  else if ← accept "'''" then lines '\'' false
  else
    expect "'"
    line '\'' false

/-- A text of any spelling. -/
def any : Scan String := do return String.ofList (← anyChars)

/-- Whether a character may stand in a key without quotes. -/
def isBareKey (c : Char) : Bool := c.isAlphanum || c == '-' || c == '_'

/-- The characters of one key: bare, or a text on one line. -/
def keyChars : Scan (List Char) := do
  if ← accept "\"" then line '"' true
  else if ← accept "'" then line '\'' false
  else
    let cs ← takeWhile isBareKey
    if cs.isEmpty then fail else return cs

/-- One key. -/
def key : Scan String := do return String.ofList (← keyChars)

/-- The greatest number of keys in a dotted key. -/
def maxKeys : Nat := 79

/-- Keys with dots between them, blanks around each allowed. -/
def dottedKey : Scan (List String) := do
  blanks
  let first ← key
  blanks
  let others ← many do
    if ← accept "." then
      blanks
      let k ← key
      blanks
      return some k
    else return none
  if maxKeys ≤ others.length then fail else return first :: others

end CellFilter.Toml.Text
