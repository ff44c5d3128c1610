import CellFilter.Bytes

/-!
# UTF-8

Strict and lenient reading of text.  Strict reading accepts exactly the byte strings that `encode`
produces; when it refuses, `firstFault` says where the first ill-formed sequence starts and how
many bytes belong to it.  Lenient reading puts one replacement character in place of every such
sequence.
-/

namespace CellFilter.Utf8

/-- The UTF-8 bytes of a text. -/
def encode (s : String) : Bytes := s.toByteArray.data.toList

/-- The text that a byte string encodes, if it is well formed. -/
def decode? (bytes : Bytes) : Option String := String.fromUTF8? ⟨bytes.toArray⟩

@[simp] theorem decode?_encode (s : String) : decode? (encode s) = some s := by
  have h : (⟨(encode s).toArray⟩ : ByteArray) = s.toByteArray := by simp [encode]
  rw [decode?, h, String.fromUTF8?]
  exact dif_pos s.isValidUTF8

theorem encode_of_decode? {bytes : Bytes} {s : String} (h : decode? bytes = some s) :
    encode s = bytes := by
  simp only [decode?, String.fromUTF8?] at h
  split at h
  · injection h with h
    subst h
    simp [encode, String.fromUTF8]
  · cases h

/-- The number of bytes that must follow a lead byte, and the range of the first of them. -/
structure Lead where
  tails : Nat
  low : UInt8
  high : UInt8

/-- What a lead byte announces; `none` for a byte that starts no sequence. -/
def Lead.of? (b : UInt8) : Option Lead :=
  if b < 0x80 then some ⟨0, 0x80, 0xBF⟩
  else if b < 0xC2 then none
  else if b < 0xE0 then some ⟨1, 0x80, 0xBF⟩
  else if b = 0xE0 then some ⟨2, 0xA0, 0xBF⟩
  else if b = 0xED then some ⟨2, 0x80, 0x9F⟩
  else if b < 0xF0 then some ⟨2, 0x80, 0xBF⟩
  else if b = 0xF0 then some ⟨3, 0x90, 0xBF⟩
  else if b < 0xF4 then some ⟨3, 0x80, 0xBF⟩
  else if b = 0xF4 then some ⟨3, 0x80, 0x8F⟩
  else none

/-- How the bytes after a lead byte continue it. -/
inductive Tail where
  /-- All announced bytes are there. -/
  | complete (taken : Nat)
  /-- A byte outside the range stands after `taken` good ones. -/
  | broken (taken : Nat)
  /-- The input ends after `taken` good bytes. -/
  | ended (taken : Nat)

/-- Walks over at most `tails` continuation bytes, the first of them within `low` and `high`. -/
def Tail.walk (taken : Nat) (low high : UInt8) : Nat → Bytes → Tail
  | 0, _ => .complete taken
  | _ + 1, [] => .ended taken
  | n + 1, b :: rest =>
    if low ≤ b ∧ b ≤ high then walk (taken + 1) 0x80 0xBF n rest else .broken taken

/-- One step of reading: a whole character or an ill-formed sequence, with its length. -/
inductive Step where
  | char (length : Nat)
  | invalid (length : Nat)
  | incomplete (length : Nat)

/-- Reads one step off a non-empty byte string. -/
def Step.of (b : UInt8) (rest : Bytes) : Step :=
  match Lead.of? b with
  | none => .invalid 1
  | some lead =>
    match Tail.walk 1 lead.low lead.high lead.tails rest with
    | .complete n => .char n
    | .broken n => .invalid n
    | .ended n => .incomplete n

/-- Where a byte string stops being UTF-8. -/
inductive Fault where
  /-- The `length` bytes from `offset` on can start no character. -/
  | invalid (length offset : Nat)
  /-- The input ends inside the character that starts at `offset`. -/
  | incomplete (offset : Nat)
  deriving DecidableEq, Repr

/-- The wording of a fault. -/
def Fault.text : Fault → String
  | .invalid length offset => s!"invalid utf-8 sequence of {length} bytes from index {offset}"
  | .incomplete offset => s!"incomplete utf-8 byte sequence from index {offset}"

/-- The first fault at or after `offset`; `skip` bytes still belong to the character before. -/
def faultFrom (offset skip : Nat) : Bytes → Option Fault
  | [] => none
  | b :: rest =>
    match skip with
    | skip + 1 => faultFrom (offset + 1) skip rest
    | 0 =>
      match Step.of b rest with
      | .char n => faultFrom (offset + 1) (n - 1) rest
      | .invalid n => some (.invalid n offset)
      | .incomplete _ => some (.incomplete offset)

/-- The first place where a byte string is not UTF-8. -/
def firstFault (bytes : Bytes) : Fault := (faultFrom 0 0 bytes).getD (.incomplete bytes.length)

/-- Strict reading. -/
def decode (bytes : Bytes) : Except Fault String :=
  match decode? bytes with
  | some s => .ok s
  | none => .error (firstFault bytes)

/-- The code point of a whole sequence of one to four bytes. -/
def codePoint : Bytes → Nat
  | [a] => a.toNat
  | [a, b] => (a.toNat - 0xC0) * 64 + (b.toNat - 0x80)
  | [a, b, c] => (a.toNat - 0xE0) * 4096 + (b.toNat - 0x80) * 64 + (c.toNat - 0x80)
  | [a, b, c, d] =>
    (a.toNat - 0xF0) * 262144 + (b.toNat - 0x80) * 4096 + (c.toNat - 0x80) * 64 + (d.toNat - 0x80)
  | _ => 0xFFFD

/-- The characters of `bytes`, one replacement character for each ill-formed sequence; `skip`
bytes still belong to the sequence before. -/
def lossyChars (skip : Nat) : Bytes → List Char
  | [] => []
  | b :: rest =>
    match skip with
    | skip + 1 => lossyChars skip rest
    | 0 =>
      match Step.of b rest with
      | .char n => Char.ofNat (codePoint ((b :: rest).take n)) :: lossyChars (n - 1) rest
      | .invalid n => Char.ofNat 0xFFFD :: lossyChars (n - 1) rest
      | .incomplete n => Char.ofNat 0xFFFD :: lossyChars (n - 1) rest

/-- Lenient reading: well-formed text as it is, anything else with replacement characters. -/
def decodeLossy (bytes : Bytes) : String :=
  match decode? bytes with
  | some s => s
  | none => String.ofList (lossyChars 0 bytes)

end CellFilter.Utf8
