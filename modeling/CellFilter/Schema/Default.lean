import CellFilter.Decimal.Reader
import CellFilter.Schema.Field

/-!
# Declared defaults

The text of a declared default, read by the kind of its field.  Defaults of byte fields are escaped:
named escapes, two hexadecimal digits after an x, or one to three octal digits of at most 255.
-/

namespace CellFilter.Default

/-- The value of one octal digit. -/
def octalDigit? (b : UInt8) : Option Nat :=
  if 48 ≤ b ∧ b ≤ 55 then some (b.toNat - 48) else none

/-- The value of one hexadecimal digit. -/
def hexDigit? (b : UInt8) : Option Nat := Bytes.hexValue? (Char.ofNat b.toNat)

/-- The byte of a one-letter escape. -/
def namedEscape? (b : UInt8) : Option UInt8 :=
  if b = 110 then some 10
  else if b = 114 then some 13
  else if b = 116 then some 9
  else if b = 92 ∨ b = 39 ∨ b = 34 then some b
  else none

/-- Octal digits at the front, at most so many: the number they continue, and the rest. -/
def octalRun (value : Nat) : Nat → Bytes → Nat × Bytes
  | 0, rest => (value, rest)
  | _ + 1, [] => (value, [])
  | more + 1, b :: rest =>
    match octalDigit? b with
    | some d => octalRun (8 * value + d) more rest
    | none => (value, b :: rest)

theorem octalRun_length (value more : Nat) (bytes : Bytes) :
    (octalRun value more bytes).2.length ≤ bytes.length := by
  induction more generalizing value bytes with
  | zero => simp [octalRun]
  | succ more ih =>
    cases bytes with
    | nil => simp [octalRun]
    | cons b rest =>
      unfold octalRun
      split
      · exact Nat.le_succ_of_le (ih _ _)
      · exact Nat.le_refl _

/-- The bytes that an escaped text stands for. -/
def unescape : Bytes → Option Bytes
  | [] => some []
  | b :: rest =>
    if b ≠ 92 then (unescape rest).map (b :: ·)
    else
      match rest with
      | [] => none
      | e :: more =>
        if e = 120 then
          match more with
          | high :: low :: tail => do
            let h ← hexDigit? high
            let l ← hexDigit? low
            let out ← unescape tail
            return (16 * h + l).toUInt8 :: out
          | _ => none
        else
          match namedEscape? e with
          | some c => (unescape more).map (c :: ·)
          | none =>
            match octalDigit? e with
            | none => none
            | some d =>
              let run := octalRun d 2 more
              if 255 < run.1 then none else (unescape run.2).map (run.1.toUInt8 :: ·)
termination_by bytes => bytes.length
decreasing_by
  all_goals have := octalRun_length 0 2 []
  all_goals simp_wf
  all_goals grind [octalRun_length]

/-- A floating-point default. -/
def double? (text : String) : Option Binary64 := Decimal.double? text

/-- Reads a declared default; `symbols` are the names of the field's enumeration. -/
def read? (kind : FieldKind) (symbols : Option EnumType) (text : String) : Option Atom :=
  match kind with
  | .int32 | .sint32 | .sfixed32 => (Decimal.int32? text).map .i32
  | .int64 | .sint64 | .sfixed64 => (Decimal.int64? text).map .i64
  | .uint32 | .fixed32 => (Decimal.uint32? text).map .u32
  | .uint64 | .fixed64 => (Decimal.uint64? text).map .u64
  | .float => (double? text).map fun x => .f32 x.toSingle
  | .double => (double? text).map .f64
  | .bool =>
    if text = "true" then some (.bool true)
    else if text = "false" then some (.bool false)
    else none
  | .string => some (.string text)
  | .bytes => (unescape (Utf8.encode text)).map .bytes
  | .enum _ => (symbols.bind fun e => e.number? text).map .enumNumber
  | .message _ => none

end CellFilter.Default
