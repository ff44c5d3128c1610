import CellFilter.Bytes

/-!
# Sets of characters as ranges of code points

A property of characters is given by the ranges of code points that have it.  Long tables are
written as runs: hexadecimal numbers that say in turn how many code points to leave out and how
many to take.
-/

namespace CellFilter

/-- Ranges of code points, both ends included. -/
abbrev CharSet := List (Nat × Nat)

namespace CharSet

/-- Whether a code point lies in one of the ranges. -/
def contains (set : CharSet) (c : Nat) : Bool :=
  set.any fun r => decide (r.1 ≤ c) && decide (c ≤ r.2)

/-- The words of a text: its longest stretches without a blank or a line end. -/
def words (text : String) : List (List Char) :=
  (text.toList.splitBy fun a b => isBlank a == isBlank b).filter fun w => !w.any isBlank
where
  isBlank (c : Char) : Bool := c == ' ' || c == '\n'

/-- The value of a hexadecimal word. -/
def hexNumber (word : List Char) : Nat :=
  word.foldl (fun n c => 16 * n + (Bytes.hexValue? c).getD 0) 0

/-- The ranges that a list of runs leaves in, the first run starting at code point `start`. -/
def ofRuns (start : Nat) : List Nat → CharSet
  | gap :: length :: rest =>
    (start + gap, start + gap + length - 1) :: ofRuns (start + gap + length) rest
  | _ => []

/-- Reads a table of runs. -/
def ofText (text : String) : CharSet := ofRuns 0 ((words text).map hexNumber)

end CharSet

end CellFilter
