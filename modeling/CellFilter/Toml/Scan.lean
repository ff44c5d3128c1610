import CellFilter.Bytes

/-!
# Scanning a document

The steps from which the reader of configuration documents is made: a step takes characters off the
front of the text or fails, and a failure is final for the whole document.  Blanks, line ends and
comments are here as well.
-/

namespace CellFilter.Toml

/-- A step of reading. -/
abbrev Scan := StateT (List Char) Option

namespace Scan

/-- Gives up. -/
def fail {α : Type} : Scan α := fun _ => none

/-- The outcome of a pure reading. -/
def ofOption {α : Type} : Option α → Scan α
  | some a => return a
  | none => fail

/-- The next character, if there is one. -/
def peek : Scan (Option Char) := do return (← get).head?

/-- Takes the next character. -/
def next : Scan Char
  | [] => none
  | c :: rest => some (c, rest)

/-- Takes a given text if it comes next. -/
def accept (text : String) : Scan Bool := fun cs =>
  let expected := text.toList
  if expected.isPrefixOf cs then some (true, cs.drop expected.length) else some (false, cs)

/-- Demands a given text. -/
def expect (text : String) : Scan Unit := do
  if ← accept text then return () else fail

/-- Takes characters while they satisfy a condition. -/
def takeWhile (p : Char → Bool) : Scan (List Char) := fun cs =>
  some (cs.takeWhile p, cs.dropWhile p)

/-- Runs a step until it yields nothing, at most `fuel` times. -/
def collect {α : Type} (step : Scan (Option α)) : (fuel : Nat) → Scan (List α)
  | 0 => fail
  | fuel + 1 => do
    match ← step with
    | none => return []
    | some a => return a :: (← collect step fuel)

/-- Runs a step until it yields nothing.  Each step but the last takes a character, so there cannot
be more of them than characters. -/
def many {α : Type} (step : Scan (Option α)) : Scan (List α) := do
  collect step ((← get).length + 1)

/-- Whether a character is a space or a tab. -/
def isBlank (c : Char) : Bool := c == ' ' || c == '\t'

/-- Whether a character may stand in a text or a comment: no control character but the tab. -/
def isVisible (c : Char) : Bool := c == '\t' || (' ' ≤ c && c != '\x7f')

/-- Skips spaces and tabs. -/
def blanks : Scan Unit := do let _ ← takeWhile isBlank

/-- Takes a line end if one comes next. -/
def newline : Scan Bool := do
  if ← accept "\n" then return true else accept "\r\n"

/-- Skips a comment if one comes next. -/
def comment : Scan Unit := do
  if ← accept "#" then let _ ← takeWhile isVisible

/-- Demands the end of a line or of the text, blanks and a comment before it allowed. -/
def lineEnd : Scan Unit := do
  blanks
  comment
  if (← get).isEmpty then return ()
  else if ← newline then return ()
  else fail

/-- Skips blanks, line ends and comments. -/
def spacing : Scan Unit := do
  let _ ← many do
    blanks
    comment
    return if ← newline then some () else none

end Scan

end CellFilter.Toml
