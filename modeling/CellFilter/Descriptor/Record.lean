import CellFilter.Text.Utf8
import CellFilter.Wire.Key

/-!
# Records

A record is a message read by a fixed table of fields instead of a schema: the fields it has, by
number, each with its contents.  The fields of a record are kept in the order of their numbers and
repeated fields in the order in which they were read, so that a record has one encoding.  What the
table does not list is left out.
-/

namespace CellFilter

/-- The contents of one field of a record. -/
inductive Item where
  | number (word : UInt64)
  | fixed (word : UInt64)
  | text (s : String)
  | raw (bytes : Bytes)
  /-- All numbers of a packed field. -/
  | packed (words : List UInt64)
  | record (fields : List (Nat × Item))

/-- Fields by number, in the order of the numbers. -/
abbrev Record := List (Nat × Item)

namespace Record

/-- A key, a length and so many bytes. -/
def delimited (number : Nat) (bytes : Bytes) : Bytes :=
  FieldKey.encode ⟨number, .lengthDelimited⟩ ++ Varint.encode bytes.length ++ bytes

mutual

/-- The bytes of one field. -/
def encodeItem (number : Nat) : Item → Bytes
  | .number word => FieldKey.encode ⟨number, .varint⟩ ++ Varint.encode word.toNat
  | .fixed word => FieldKey.encode ⟨number, .sixtyFourBit⟩ ++ Bytes.littleEndian 8 word.toNat
  | .text s => delimited number (Utf8.encode s)
  | .raw bytes => delimited number bytes
  | .packed words => delimited number (words.flatMap fun w => Varint.encode w.toNat)
  | .record fields => delimited number (encode fields)

/-- The bytes of a record. -/
def encode : List (Nat × Item) → Bytes
  | [] => []
  | (number, item) :: rest => encodeItem number item ++ encode rest

end

/-- Adds a field after all fields of the same or a lower number. -/
def insert (r : Record) (number : Nat) (item : Item) : Record :=
  r.takeWhile (fun f => f.1 ≤ number) ++ (number, item) :: r.dropWhile (fun f => f.1 ≤ number)

/-- Removes all fields of a number. -/
def erase (r : Record) (number : Nat) : Record := r.filter fun f => f.1 != number

/-- Replaces a field. -/
def set (r : Record) (number : Nat) (item : Item) : Record := (r.erase number).insert number item

/-- The first field of a number. -/
def get? (r : Record) (number : Nat) : Option Item := r.lookup number

/-- The fields whose numbers are listed. -/
def only (r : Record) (numbers : List Nat) : Record := r.filter fun f => numbers.contains f.1

/-- The text in a field. -/
def text? (r : Record) (number : Nat) : Option String :=
  match r.get? number with
  | some (.text s) => some s
  | _ => none

/-- The number in a field, as a signed word of 32 bits. -/
def int? (r : Record) (number : Nat) : Option Int32 :=
  match r.get? number with
  | some (.number word) => some word.toUInt32.toInt32
  | _ => none

/-- The texts of a repeated field. -/
def texts (r : Record) (number : Nat) : List String :=
  r.filterMap fun f => match f with
    | (n, .text s) => if n = number then some s else none
    | _ => none

end Record

/-- A signed word of 32 bits with its sign extended. -/
def signExtend (word : UInt64) : UInt64 := word.toUInt32.toInt32.toInt64.toUInt64

end CellFilter
