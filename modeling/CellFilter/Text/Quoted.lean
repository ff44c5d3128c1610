import CellFilter.Text.Property

/-!
# Quoted text

The form in which texts and byte strings are shown to a developer: between double quotes, with
escapes for what has no visible form of its own.  Records are shown by their fields, between braces.
-/

namespace CellFilter.Quoted

/-- The digits of a number in base sixteen, lower case, at least `width` of them. -/
def hexDigits (width n : Nat) : List Char :=
  let digits := Nat.toDigits 16 n
  List.replicate (width - digits.length) '0' ++ digits

/-- How one character is shown between quotes. -/
def showChar (c : Char) : List Char :=
  if c = '"' then ['\\', '"']
  else if c = '\\' then ['\\', '\\']
  else if c = '\n' then ['\\', 'n']
  else if c = '\r' then ['\\', 'r']
  else if c = '\t' then ['\\', 't']
  else if c.toNat = 0 then ['\\', '0']
  else if Property.isGraphemeExtend c.toNat || !Property.isPrintable c.toNat then
    ['\\', 'u', '\x7b'] ++ hexDigits 1 c.toNat ++ ['\x7d']
  else [c]

/-- A text between quotes. -/
def showText (s : String) : String := String.ofList (['"'] ++ s.toList.flatMap showChar ++ ['"'])

/-- How one byte is shown between quotes. -/
def showByte (b : UInt8) : List Char :=
  let c := Char.ofNat b.toNat
  if c = '"' then ['\\', '"']
  else if c = '\\' then ['\\', '\\']
  else if c = '\n' then ['\\', 'n']
  else if c = '\r' then ['\\', 'r']
  else if c = '\t' then ['\\', 't']
  else if b = 0 then ['\\', '0']
  else if 0x20 ≤ b ∧ b < 0x7F then [c]
  else ['\\', 'x'] ++ hexDigits 2 b.toNat

/-- A byte string between quotes, marked by a leading b. -/
def showBytes (bytes : Bytes) : String :=
  String.ofList (['b', '"'] ++ bytes.flatMap showByte ++ ['"'])

end CellFilter.Quoted

namespace CellFilter

/-- The braces around the fields of a description. -/
def braced (name : String) (fields : List (String × String)) : String :=
  name ++ " \x7b " ++ ", ".intercalate (fields.map fun f => f.1 ++ ": " ++ f.2) ++ " \x7d"

/-- The description of an optional value. -/
def describeOption {α : Type} (describe : α → String) : Option α → String
  | none => "None"
  | some a => "Some(" ++ describe a ++ ")"

/-- The description of a list of bytes. -/
def describeBytes (bytes : Bytes) : String :=
  "[" ++ ", ".intercalate (bytes.map fun b => toString b.toNat) ++ "]"

end CellFilter
