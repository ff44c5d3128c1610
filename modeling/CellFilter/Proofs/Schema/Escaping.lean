import CellFilter.Schema.Default
import Mathlib.Data.List.Forall2
import Mathlib.Tactic.SplitIfs

/-!
# Escaped defaults

The text of a byte default is a row of units, each of which stands for one byte: a byte that is no
backslash, a backslash with a letter, a backslash with an x and two hexadecimal digits, or a
backslash with octal digits, as many as there are up to three.  The reader accepts these rows and no
other text.

* `EscapeUnit`: a unit in front of the rest of a text, and the byte it stands for.
* `unescape_unit`: the reader takes a unit off the front as a whole; `unescapes_of_unescape`: what it
  reads is a row of them.
* `unescape_undoes`: **unescaping** accepts the rows of units, and undoes `escape`.
-/

namespace CellFilter.Default

/-- The letters of the named escapes and the bytes that they stand for. -/
def namedEscapes : List (UInt8 × UInt8) :=
  [(110, 10), (114, 13), (116, 9), (92, 92), (39, 39), (34, 34)]

/-- An octal digit and its value. -/
def IsOctalDigit (b : UInt8) (value : Nat) : Prop := value < 8 ∧ b.toNat = 48 + value

/-- A hexadecimal digit of either case and its value. -/
def IsHexDigit (b : UInt8) (value : Nat) : Prop :=
  value < 10 ∧ b.toNat = 48 + value ∨
    10 ≤ value ∧ value < 16 ∧ (b.toNat = 87 + value ∨ b.toNat = 55 + value)

/-- The number that octal digits continue. -/
def octalNumber (start : Nat) (values : List Nat) : Nat :=
  values.foldl (fun n value => 8 * n + value) start

/-- One unit of an escaped text, in front of the rest of it, and the byte that it stands for. -/
inductive EscapeUnit : (unit rest : Bytes) → UInt8 → Prop
  | plain {b : UInt8} {rest : Bytes} (hb : b ≠ 92) : EscapeUnit [b] rest b
  | named {letter b : UInt8} {rest : Bytes} (h : (letter, b) ∈ namedEscapes) :
    EscapeUnit [92, letter] rest b
  | hex {high low : UInt8} {h l : Nat} {rest : Bytes} (hh : IsHexDigit high h)
    (hl : IsHexDigit low l) : EscapeUnit [92, 120, high, low] rest (16 * h + l).toUInt8
  /-- Fewer than three digits are only taken where no further one follows. -/
  | octal {digits : Bytes} {values : List Nat} {rest : Bytes}
    (hdigits : List.Forall₂ IsOctalDigit digits values) (hsome : digits ≠ [])
    (hlen : digits.length ≤ 3)
    (hmaximal : digits.length = 3 ∨ ∀ b ∈ rest.head?, ∀ value, ¬ IsOctalDigit b value)
    (hsmall : octalNumber 0 values ≤ 255) :
    EscapeUnit (92 :: digits) rest (octalNumber 0 values).toUInt8

/-- A text is a row of units, and the bytes are what they stand for. -/
inductive Unescapes : (text bytes : Bytes) → Prop
  | nil : Unescapes [] []
  | cons {unit rest bytes : Bytes} {b : UInt8} (hunit : EscapeUnit unit rest b)
    (hrest : Unescapes rest bytes) : Unescapes (unit ++ rest) (b :: bytes)

/-! ## Digits and letters -/

theorem octalDigit?_eq_some {b : UInt8} {value : Nat} :
    octalDigit? b = some value ↔ IsOctalDigit b value := by
  simp only [octalDigit?, IsOctalDigit, UInt8.le_iff_toNat_le, UInt8.reduceToNat]
  split_ifs with h
  · simp only [Option.some.injEq]
    omega
  · simp only [false_iff]
    omega

theorem octalDigit?_eq_none {b : UInt8} :
    octalDigit? b = none ↔ ∀ value, ¬ IsOctalDigit b value := by
  simp [Option.eq_none_iff_forall_not_mem, octalDigit?_eq_some]

theorem hexDigit?_eq_some {b : UInt8} {value : Nat} :
    hexDigit? b = some value ↔ IsHexDigit b value := by
  have hb : b.toNat < 256 := b.toNat_lt
  have hchar : (Char.ofNat b.toNat).val.toNat = b.toNat := by
    rw [Char.ofNat, dif_pos (Or.inl (by omega))]
    rfl
  simp only [hexDigit?, Bytes.hexValue?, IsHexDigit, Char.le_def, UInt32.le_iff_toNat_le, hchar,
    Char.toNat]
  have hdigits : '0'.val.toNat = 48 ∧ '9'.val.toNat = 57 ∧ 'a'.val.toNat = 97 ∧
      'f'.val.toNat = 102 ∧ 'A'.val.toNat = 65 ∧ 'F'.val.toNat = 70 := by decide
  obtain ⟨h0, h9, ha, hf, hA, hF⟩ := hdigits
  rw [h0, h9, ha, hf, hA, hF]
  split_ifs
  · simp only [Option.some.injEq]
    omega
  · simp only [Option.some.injEq]
    omega
  · simp only [Option.some.injEq]
    omega
  · simp only [false_iff]
    omega

theorem namedEscape?_eq_some {letter b : UInt8} :
    namedEscape? letter = some b ↔ (letter, b) ∈ namedEscapes := by
  unfold namedEscape?
  simp only [namedEscapes, List.mem_cons, Prod.mk.injEq, List.not_mem_nil, or_false]
  split_ifs with hn hr ht hself
  · subst hn
    simp [eq_comm]
  · subst hr
    simp [eq_comm]
  · subst ht
    simp [eq_comm]
  · rcases hself with rfl | rfl | rfl <;> simp [eq_comm]
  · simp only [not_or] at hself
    simp [hn, hr, ht, hself]

/-! ## Runs of octal digits -/

/-- A run takes all octal digits there are, up to so many. -/
theorem octalRun_append {digits : Bytes} {values : List Nat} {rest : Bytes}
    (hdigits : List.Forall₂ IsOctalDigit digits values) : ∀ (start : Nat) {more : Nat},
    digits.length ≤ more →
      (digits.length = more ∨ ∀ b ∈ rest.head?, ∀ value, ¬ IsOctalDigit b value) →
        octalRun start more (digits ++ rest) = (octalNumber start values, rest) := by
  induction hdigits with
  | nil =>
    intro start more _ hmaximal
    cases more with
    | zero => rfl
    | succ more =>
      cases rest with
      | nil => rfl
      | cons b rest =>
        have hstop := octalDigit?_eq_none.mpr ((hmaximal.resolve_left (by simp)) b rfl)
        rw [List.nil_append, octalRun, hstop]
        rfl
  | cons hdigit _ ih =>
    intro start more hlen hmaximal
    cases more with
    | zero => simp at hlen
    | succ more =>
      rw [List.length_cons] at hlen hmaximal
      rw [List.cons_append, octalRun, octalDigit?_eq_some.mpr hdigit]
      exact ih _ (Nat.le_of_succ_le_succ hlen) (hmaximal.imp_left Nat.succ.inj)

/-- What a run takes. -/
theorem exists_octalRun : ∀ (more start : Nat) (text : Bytes), ∃ digits values,
    text = digits ++ (octalRun start more text).2 ∧ List.Forall₂ IsOctalDigit digits values ∧
      digits.length ≤ more ∧ (digits.length = more ∨
        ∀ b ∈ (octalRun start more text).2.head?, ∀ value, ¬ IsOctalDigit b value) ∧
      (octalRun start more text).1 = octalNumber start values
  | 0, _, _ => ⟨[], [], rfl, .nil, Nat.le_refl 0, .inl rfl, rfl⟩
  | _ + 1, _, [] => ⟨[], [], rfl, .nil, Nat.zero_le _, .inr (by simp [octalRun]), rfl⟩
  | more + 1, start, b :: text => by
    rw [octalRun]
    cases hb : octalDigit? b with
    | none =>
      refine ⟨[], [], rfl, .nil, Nat.zero_le _, .inr fun c hc => ?_, rfl⟩
      cases hc
      exact octalDigit?_eq_none.mp hb
    | some value =>
      obtain ⟨digits, values, hsplit, hdigits, hlen, hmaximal, hnumber⟩ :=
        exists_octalRun more (8 * start + value) text
      refine ⟨b :: digits, value :: values, ?_, .cons (octalDigit?_eq_some.mp hb) hdigits,
        Nat.succ_le_succ hlen, hmaximal.imp_left (congrArg Nat.succ), hnumber⟩
      dsimp only
      rw [List.cons_append, ← hsplit]

/-! ## Units -/

theorem not_mem_namedEscapes_of_octal {digit b : UInt8} {value : Nat}
    (h : IsOctalDigit digit value) : (digit, b) ∉ namedEscapes := by
  intro hmem
  simp only [namedEscapes, List.mem_cons, Prod.mk.injEq, List.not_mem_nil, or_false] at hmem
  unfold IsOctalDigit at h
  rcases hmem with ⟨rfl, -⟩ | ⟨rfl, -⟩ | ⟨rfl, -⟩ | ⟨rfl, -⟩ | ⟨rfl, -⟩ | ⟨rfl, -⟩ <;>
    simp only [UInt8.reduceToNat] at h <;> omega

/-- **A unit** is taken off the front as a whole. -/
theorem unescape_unit {unit rest : Bytes} {b : UInt8} (h : EscapeUnit unit rest b) :
    unescape (unit ++ rest) = (unescape rest).map (b :: ·) := by
  rw [unescape.eq_def (unit ++ rest)]
  cases h with
  | plain hb => exact if_pos hb
  | named hnamed =>
    rename_i letter
    have hx : letter ≠ 120 := by
      rintro rfl
      simp [namedEscapes] at hnamed
    simp [hx, namedEscape?_eq_some.mpr hnamed]
  | hex hh hl =>
    simp only [List.cons_append, List.nil_append, ne_eq, not_true_eq_false, if_false, if_true,
      hexDigit?_eq_some.mpr hh, hexDigit?_eq_some.mpr hl, Option.bind_eq_bind, Option.bind_some]
    cases unescape rest <;> rfl
  | octal hdigits hsome hlen hmaximal hsmall =>
    cases hdigits with
    | nil => exact absurd rfl hsome
    | @cons e value digits values hdigit hdigits =>
      have hx : e ≠ 120 := by
        rintro rfl
        exact absurd hdigit.2 (by have := hdigit.1; simp only [UInt8.reduceToNat]; omega)
      have hnamed : namedEscape? e = none := by
        rw [Option.eq_none_iff_forall_ne_some]
        exact fun b hb => not_mem_namedEscapes_of_octal hdigit (namedEscape?_eq_some.mp hb)
      have hrun := octalRun_append hdigits value (Nat.le_of_succ_le_succ hlen)
        (hmaximal.imp_left Nat.succ.inj)
      have hnumber : octalNumber 0 (value :: values) = octalNumber value values := by
        simp [octalNumber]
      rw [hnumber] at hsmall ⊢
      have hfits : ¬ 255 < octalNumber value values := by omega
      simp only [List.cons_append, ne_eq, not_true_eq_false, if_false, hx, hnamed,
        octalDigit?_eq_some.mpr hdigit, hrun, hfits]

/-- A run behind an octal digit makes a unit with it, if it comes to a byte. -/
theorem exists_octalUnit {digit : UInt8} {value : Nat} (hdigit : octalDigit? digit = some value)
    (text : Bytes) (hsmall : ¬ 255 < (octalRun value 2 text).1) : ∃ digits,
    text = digits ++ (octalRun value 2 text).2 ∧
      EscapeUnit (92 :: digit :: digits) (octalRun value 2 text).2
        (octalRun value 2 text).1.toUInt8 := by
  obtain ⟨digits, values, hsplit, hdigits, hlen, hmaximal, hnumber⟩ := exists_octalRun 2 value text
  have hall : octalNumber 0 (value :: values) = octalNumber value values := by
    simp [octalNumber]
  rw [hnumber, ← hall] at hsmall
  refine ⟨digits, hsplit, ?_⟩
  rw [hnumber, ← hall]
  exact .octal (.cons (octalDigit?_eq_some.mp hdigit) hdigits) (by simp) (Nat.succ_le_succ hlen)
    (hmaximal.imp_left (congrArg Nat.succ)) (Nat.le_of_not_lt hsmall)

/-- **A text that is read** is a row of units, one for each step of the reader. -/
theorem unescapes_of_unescape {text bytes : Bytes} (h : unescape text = some bytes) :
    Unescapes text bytes := by
  fun_induction unescape text generalizing bytes with
  | case1 =>
    cases h
    exact .nil
  | case2 b rest hplain ih =>
    obtain ⟨left, hleft, rfl⟩ := Option.map_eq_some_iff.mp h
    exact .cons (.plain hplain) (ih hleft)
  | case4 b hescape high low tail ih =>
    obtain rfl := not_not.mp hescape
    obtain ⟨n, hn, h⟩ := Option.bind_eq_some_iff.mp h
    obtain ⟨l, hl, h⟩ := Option.bind_eq_some_iff.mp h
    obtain ⟨left, hleft, h⟩ := Option.bind_eq_some_iff.mp h
    cases h
    exact .cons (.hex (hexDigit?_eq_some.mp hn) (hexDigit?_eq_some.mp hl)) (ih hleft)
  | case6 b hescape letter more _ c hnamed ih =>
    obtain rfl := not_not.mp hescape
    obtain ⟨left, hleft, rfl⟩ := Option.map_eq_some_iff.mp h
    exact .cons (.named (namedEscape?_eq_some.mp hnamed)) (ih hleft)
  | case9 b hescape digit more _ _ value hdigit run hsmall =>
    rename_i ih
    obtain rfl := not_not.mp hescape
    obtain ⟨left, hleft, rfl⟩ := Option.map_eq_some_iff.mp h
    obtain ⟨digits, hsplit, hunit⟩ := exists_octalUnit hdigit more hsmall
    rw [hsplit]
    exact .cons hunit (ih hleft)
  -- a backslash at the end, too few digits behind an x, another letter, a number too large
  | case3 | case5 | case7 | case8 => cases h

/-- **Unescaping** accepts the rows of units, and gives the bytes that they stand for. -/
theorem unescape_eq_some_iff {text bytes : Bytes} :
    unescape text = some bytes ↔ Unescapes text bytes := by
  refine ⟨unescapes_of_unescape, fun h => ?_⟩
  induction h with
  | nil => rw [unescape]
  | cons hunit _ ih => rw [unescape_unit hunit, ih, Option.map_some]

/-! ## Escaping -/

/-- Whether a byte is printed as it is. -/
def isPrintable (b : UInt8) : Bool := 32 ≤ b && b < 127

/-- One octal digit of a byte. -/
def octalDigit (n : Nat) : UInt8 := (48 + n % 8).toUInt8

/-- A byte as it stands in a default: escaped by a letter if it has one, as it is if it is printed,
and else as three octal digits. -/
def escapeByte (b : UInt8) : Bytes :=
  match namedEscapes.find? fun e => e.2 == b with
  | some e => [92, e.1]
  | none =>
    if isPrintable b then [b]
    else [92, octalDigit (b.toNat / 64), octalDigit (b.toNat / 8), octalDigit b.toNat]

/-- The default of a byte string. -/
def escape (bytes : Bytes) : Bytes := bytes.flatMap escapeByte

theorem isOctalDigit_octalDigit (n : Nat) : IsOctalDigit (octalDigit n) (n % 8) := by
  have hlt : n % 8 < 8 := Nat.mod_lt n (by decide)
  refine ⟨hlt, ?_⟩
  simp only [octalDigit, Nat.toUInt8, UInt8.toNat_ofNat']
  omega

/-- An escaped byte is a unit, whatever follows it. -/
theorem escapeUnit_escapeByte (b : UInt8) (rest : Bytes) : EscapeUnit (escapeByte b) rest b := by
  unfold escapeByte
  cases hfind : namedEscapes.find? fun e => e.2 == b with
  | some e =>
    have hb : e.2 = b := by simpa using List.find?_some hfind
    exact .named (hb ▸ List.mem_of_find?_eq_some hfind)
  | none =>
    dsimp only
    split_ifs with hprinted
    · refine .plain ?_
      rintro rfl
      revert hfind
      decide
    · have hb : b.toNat < 256 := b.toNat_lt
      have hnumber : octalNumber 0 [b.toNat / 64 % 8, b.toNat / 8 % 8, b.toNat % 8] = b.toNat := by
        simp only [octalNumber, List.foldl_cons, List.foldl_nil]
        omega
      have hunit := @EscapeUnit.octal _ _ rest
        (.cons (isOctalDigit_octalDigit (b.toNat / 64))
          (.cons (isOctalDigit_octalDigit (b.toNat / 8))
            (.cons (isOctalDigit_octalDigit b.toNat) .nil)))
        (by simp) (by simp) (.inl rfl) (by rw [hnumber]; omega)
      rw [hnumber] at hunit
      simpa using hunit

theorem unescape_escape (bytes : Bytes) : unescape (escape bytes) = some bytes := by
  rw [unescape_eq_some_iff]
  induction bytes with
  | nil => exact .nil
  | cons b bytes ih =>
    exact .cons (escapeUnit_escapeByte b (escape bytes)) ih

/-- What is escaped is ASCII. -/
theorem escapeByte_lt {b c : UInt8} (h : c ∈ escapeByte b) : c < 128 := by
  have hdigit : ∀ n, octalDigit n < 128 := by
    intro n
    obtain ⟨hlt, hvalue⟩ := isOctalDigit_octalDigit n
    rw [UInt8.lt_iff_toNat_lt, hvalue]
    simp only [UInt8.reduceToNat]
    omega
  have hletters : ∀ e ∈ namedEscapes, e.1 < 128 := by simp [namedEscapes]
  unfold escapeByte at h
  cases hfind : namedEscapes.find? fun e => e.2 == b with
  | some e =>
    rw [hfind] at h
    rcases List.mem_pair.mp h with rfl | rfl
    · decide
    · exact hletters e (List.mem_of_find?_eq_some hfind)
  | none =>
    rw [hfind] at h
    dsimp only at h
    split_ifs at h with hprinted
    · rw [List.mem_singleton.mp h]
      simp only [isPrintable, Bool.and_eq_true, decide_eq_true_eq] at hprinted
      exact UInt8.lt_trans hprinted.2 (by decide)
    · simp only [List.mem_cons, List.not_mem_nil, or_false] at h
      rcases h with rfl | rfl | rfl | rfl
      · decide
      all_goals exact hdigit _

/-- The escaped text of a byte string. -/
def escapeText (bytes : Bytes) : String :=
  String.ofList ((escape bytes).map fun b => Char.ofNat b.toNat)

theorem utf8EncodeChar_ofNat {b : UInt8} (h : b < 128) :
    String.utf8EncodeChar (Char.ofNat b.toNat) = [b] := by
  have hlt : b.toNat < 128 := UInt8.lt_iff_toNat_lt.mp h
  have hval : (Char.ofNat b.toNat).val.toNat = b.toNat := by
    rw [Char.ofNat, dif_pos (Or.inl (by omega))]
    rfl
  have hsize : (Char.ofNat b.toNat).utf8Size = 1 := by
    rw [Char.utf8Size_eq_one_iff, UInt32.le_iff_toNat_le, hval]
    exact Nat.le_of_lt_succ hlt
  rw [String.utf8EncodeChar_eq_singleton hsize]
  congr 1
  apply UInt8.toNat.inj
  rw [UInt32.toNat_toUInt8, hval]
  omega

/-- The escaped text is written as the escaped bytes. -/
theorem encode_escapeText (bytes : Bytes) : Utf8.encode (escapeText bytes) = escape bytes := by
  have hchars : ∀ c ∈ escape bytes, String.utf8EncodeChar (Char.ofNat c.toNat) = [c] := by
    intro c hc
    obtain ⟨b, -, hc⟩ := List.mem_flatMap.mp hc
    exact utf8EncodeChar_ofNat (escapeByte_lt hc)
  have hencode : Utf8.encode (escapeText bytes) =
      (escape bytes).flatMap fun c => String.utf8EncodeChar (Char.ofNat c.toNat) := by
    simp [Utf8.encode, escapeText, List.utf8Encode, List.flatMap_map]
  rw [hencode, List.flatMap_congr hchars, List.flatMap_singleton']

/-- **Unescaping** accepts just the rows of units, and gives the bytes that they stand for; so it
undoes escaping, and the escaped text of a byte string is a default that reads as that string. -/
theorem unescape_undoes :
    (∀ text bytes, unescape text = some bytes ↔ Unescapes text bytes) ∧
    (∀ bytes, unescape (escape bytes) = some bytes) ∧
    ∀ symbols bytes, Utf8.encode (escapeText bytes) = escape bytes ∧
      read? .bytes symbols (escapeText bytes) = some (.bytes bytes) := by
  refine ⟨fun _ _ => unescape_eq_some_iff, unescape_escape, fun symbols bytes => ?_⟩
  refine ⟨encode_escapeText bytes, ?_⟩
  rw [read?, encode_escapeText, unescape_escape, Option.map_some]

/-- A backslash before a letter, and digits behind the last one that is taken. -/
example : unescape (Utf8.encode "\\\\n\\x4142\\1018\\18\\0") =
    some [92, 110, 65, 52, 50, 65, 56, 1, 56, 0] := by
  decide +kernel

end CellFilter.Default
