import CellFilter.Text.Quoted

/-!
# JSON texts

The form in which summaries are printed: objects with their members in a given order, two blanks of
indentation a level, and nothing between the brackets of an empty list.
-/

namespace CellFilter

/-- A value to be printed. -/
inductive Json where
  | text (s : String)
  | number (n : Nat)
  | boolean (b : Bool)
  | list (items : List Json)
  | record (members : List (String × Json))

namespace Json

/-- How a character is written inside quotes. -/
def escaped (c : Char) : List Char :=
  if c == '"' then ['\\', '"']
  else if c == '\\' then ['\\', '\\']
  else if c == '\x08' then ['\\', 'b']
  else if c == '\x0c' then ['\\', 'f']
  else if c == '\n' then ['\\', 'n']
  else if c == '\r' then ['\\', 'r']
  else if c == '\t' then ['\\', 't']
  else if c < ' ' then ['\\', 'u'] ++ Quoted.hexDigits 4 c.toNat
  else [c]

/-- A text inside quotes. -/
def quoted (s : String) : String := String.ofList (['"'] ++ s.toList.flatMap escaped ++ ['"'])

/-- A line end and the indentation of a level. -/
def lineBreak (level : Nat) : String := "\n" ++ String.ofList (List.replicate (2 * level) ' ')

/-- Written items between brackets, one on a line. -/
def enclose (opening closing : String) (level : Nat) (items : List String) : String :=
  if items.isEmpty then opening ++ closing
  else opening ++ ",".intercalate (items.map (lineBreak (level + 1) ++ ·)) ++ lineBreak level ++
    closing

mutual

/-- The written form of a value at a level of indentation. -/
def render (level : Nat) : Json → String
  | .text s => quoted s
  | .number n => toString n
  | .boolean b => if b then "true" else "false"
  | .list items => enclose "[" "]" level (renderItems (level + 1) items)
  | .record members => enclose "\x7b" "\x7d" level (renderMembers (level + 1) members)

/-- The written forms of the items of a list. -/
def renderItems (level : Nat) : List Json → List String
  | [] => []
  | item :: rest => render level item :: renderItems level rest

/-- The written forms of the members of an object. -/
def renderMembers (level : Nat) : List (String × Json) → List String
  | [] => []
  | (name, value) :: rest =>
    (quoted name ++ ": " ++ render level value) :: renderMembers level rest

end

end Json

end CellFilter
