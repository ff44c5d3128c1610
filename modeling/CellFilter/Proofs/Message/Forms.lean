import CellFilter.Proofs.Message.Conformance
import CellFilter.Proofs.Wire.Forms

/-!
# Messages on the wire

The byte strings that stand for a message.  A message is written as records, one after the other: a
value of a field, a run of values of a repeated field, or anything under a number that the schema
does not declare.  Records come in any order; only the values of one field keep theirs.

* `AtomForm`: what a value that is no message looks like, by the shape of its kind.
* `ValueForm`, `RecordForm`, `MessageForm`: values, records and whole messages.
* `readAtom_form`, `readEntry_form`: **each of them** is read for what it stands for.
-/

namespace CellFilter

open Outcome

/-! ## Values that are no messages -/

namespace FieldKind

/-- The number that a value is written as. -/
def numberOf? : FieldKind → Atom → Option Nat
  | .int32, .i32 n => some (twosComplement 64 n.toInt)
  | .int64, .i64 n => some (twosComplement 64 n.toInt)
  | .uint32, .u32 n => some n.toNat
  | .uint64, .u64 n => some n.toNat
  | .sint32, .i32 n => some (zigzag n.toInt)
  | .sint64, .i64 n => some (zigzag n.toInt)
  | .bool, .bool b => some b.toNat
  | .enum _, .enumNumber n => some (twosComplement 64 n.toInt)
  | _, _ => none

/-- The word of four bytes that a value is written as. -/
def word32Of? : FieldKind → Atom → Option Nat
  | .float, .f32 x => some x.bits.toNat
  | .fixed32, .u32 n => some n.toNat
  | .sfixed32, .i32 n => some (twosComplement 32 n.toInt)
  | _, _ => none

/-- The word of eight bytes that a value is written as. -/
def word64Of? : FieldKind → Atom → Option Nat
  | .double, .f64 x => some x.bits.toNat
  | .fixed64, .u64 n => some n.toNat
  | .sfixed64, .i64 n => some (twosComplement 64 n.toInt)
  | _, _ => none

/-- The byte string that a value is written as. -/
def bodyOf? : FieldKind → Atom → Option Bytes
  | .string, .string s => some (Utf8.encode s)
  | .bytes, .bytes b => some b
  | _, _ => none

end FieldKind

/-- What a value of a kind looks like on the wire. -/
inductive AtomForm (kind : FieldKind) (a : Atom) : Bytes → Prop where
  | varint {n : Nat} {bytes : Bytes} :
    kind.numberOf? a = some n → Varint.Form n bytes → AtomForm kind a bytes
  | word32 {n : Nat} : kind.word32Of? a = some n → AtomForm kind a (Bytes.littleEndian 4 n)
  | word64 {n : Nat} : kind.word64Of? a = some n → AtomForm kind a (Bytes.littleEndian 8 n)
  | delimited {body bytes : Bytes} :
    kind.bodyOf? a = some body → Delimited body bytes → AtomForm kind a bytes

namespace FieldKind

variable {kind : FieldKind} {a : Atom} {n : Nat}

theorem wireType_of_numberOf? (h : kind.numberOf? a = some n) : kind.wireType = .varint := by
  cases kind <;> first | rfl | (cases a <;> cases h)

theorem wireType_of_word32Of? (h : kind.word32Of? a = some n) :
    kind.wireType = .thirtyTwoBit := by
  cases kind <;> first | rfl | (cases a <;> cases h)

theorem wireType_of_word64Of? (h : kind.word64Of? a = some n) :
    kind.wireType = .sixtyFourBit := by
  cases kind <;> first | rfl | (cases a <;> cases h)

/-- A value is what the number that it is written as stands for. -/
theorem atomOfVarint_numberOf? (h : kind.numberOf? a = some n) :
    Message.atomOfVarint kind n = some a := by
  cases kind <;> cases a <;> cases h
  case int32.i32 n =>
    exact congrArg (some ∘ Atom.i32) (toInt32_twosComplement (by decide : 32 ≤ 64) n)
  case int64.i64 n => exact congrArg (some ∘ Atom.i64) (toInt64_twosComplement le_rfl n)
  case uint32.u32 n => exact congrArg (some ∘ Atom.u32) (UInt32.ofNat_toNat)
  case uint64.u64 n => exact congrArg (some ∘ Atom.u64) (UInt64.ofNat_toNat)
  case sint32.i32 n => exact congrArg (some ∘ Atom.i32) (unzigzag32_zigzag n)
  case sint64.i64 n => exact congrArg (some ∘ Atom.i64) (unzigzag64_zigzag n)
  case bool.bool b => cases b <;> rfl
  case enum.enumNumber n =>
    exact congrArg (some ∘ Atom.enumNumber) (toInt32_twosComplement (by decide : 32 ≤ 64) n)

theorem atomOfWord32_word32Of? (h : kind.word32Of? a = some n) :
    n < 256 ^ 4 ∧ Message.atomOfWord32 kind n.toUInt32 = some a := by
  cases kind <;> cases a <;> cases h
  case float.f32 x =>
    exact ⟨x.bits.toNat_lt, congrArg (some ∘ Atom.f32 ∘ Binary32.mk) (UInt32.ofNat_toNat)⟩
  case fixed32.u32 n => exact ⟨n.toNat_lt, congrArg (some ∘ Atom.u32) (UInt32.ofNat_toNat)⟩
  case sfixed32.i32 n =>
    refine ⟨?_, congrArg (some ∘ Atom.i32) (toInt32_twosComplement le_rfl n)⟩
    unfold twosComplement
    omega

theorem atomOfWord64_word64Of? (h : kind.word64Of? a = some n) :
    n < 256 ^ 8 ∧ Message.atomOfWord64 kind n.toUInt64 = some a := by
  cases kind <;> cases a <;> cases h
  case double.f64 x =>
    exact ⟨x.bits.toNat_lt, congrArg (some ∘ Atom.f64 ∘ Binary64.mk) (UInt64.ofNat_toNat)⟩
  case fixed64.u64 n => exact ⟨n.toNat_lt, congrArg (some ∘ Atom.u64) (UInt64.ofNat_toNat)⟩
  case sfixed64.i64 n =>
    refine ⟨?_, congrArg (some ∘ Atom.i64) (toInt64_twosComplement le_rfl n)⟩
    unfold twosComplement
    omega

end FieldKind

/-! ## Records -/

/-- A record by what it holds. -/
inductive WireRecord where
  /-- One value of a field. -/
  | value (number : Nat) (v : Value)
  /-- Values of a repeated field, one after the other under one key. -/
  | run (number : Nat) (atoms : List Atom)
  /-- Something under a number that is not declared. -/
  | stray

namespace WireRecord

/-- The values in a record and the number they belong to. -/
def holds : WireRecord → Option (Nat × List Value)
  | .value number v => some (number, [v])
  | .run number atoms => some (number, atoms.map .atom)
  | .stray => none

end WireRecord

/-- The values that the records of a number hold together, if there is such a record. -/
def gathered (records : List WireRecord) (number : Nat) : Option (List Value) :=
  match (records.filterMap WireRecord.holds).filter fun held => held.1 == number with
  | [] => none
  | found => some (found.flatMap Prod.snd)

/-- The values of a field, one by one. -/
def Value.occurrences : Value → List Value
  | .list values => values
  | v => [v]

mutual

/-- What a value of a field looks like on the wire, without its key. -/
inductive ValueForm : Schema → Field → Value → Bytes → Prop where
  | atom {s : Schema} {f : Field} {a : Atom} {bytes : Bytes} :
    AtomForm f.kind a bytes → ValueForm s f (.atom a) bytes
  | message {s : Schema} {f : Field} {m : Message} {body bytes : Bytes} :
    s.messageSchema? f = some m.schema → MessageForm m body → Delimited body bytes →
      ValueForm s f (.message m) bytes

/-- What a record looks like on the wire. -/
inductive RecordForm : Schema → WireRecord → Bytes → Prop where
  | value {s : Schema} {f : Field} {number : Nat} {v : Value} {key bytes : Bytes} :
    s.fieldByNumber? number = some f → FieldKey.Form ⟨number, f.kind.wireType⟩ key →
      ValueForm s f v bytes → RecordForm s (.value number v) (key ++ bytes)
  | run {s : Schema} {f : Field} {number : Nat} {pieces : List (Atom × Bytes)}
    {key bytes : Bytes} :
    s.fieldByNumber? number = some f → f.repeated = true → f.kind.isPackable = true →
      FieldKey.Form ⟨number, .lengthDelimited⟩ key → (∀ p ∈ pieces, AtomForm f.kind p.1 p.2) →
        Delimited (joined pieces) bytes →
          RecordForm s (.run number (pieces.map Prod.fst)) (key ++ bytes)
  | stray {s : Schema} {key : FieldKey} {bytes contents : Bytes} :
    s.fieldByNumber? key.number = none → key.Form bytes → Contents key.wireType contents →
      RecordForm s .stray (bytes ++ contents)

/-- What a message looks like on the wire: records of its fields one after the other, which hold
the values of each field in their order, and stray records anywhere between them. -/
inductive MessageForm : Message → Bytes → Prop where
  | mk {s : Schema} {fields : List (Nat × Value)} {pieces : List (WireRecord × Bytes)} :
    (∀ p ∈ pieces, RecordForm s p.1 p.2) →
      (∀ number, gathered (pieces.map Prod.fst) number =
        (fields.lookup number).map Value.occurrences) →
          MessageForm ⟨s, fields⟩ (joined pieces)

end

namespace Message

variable {schema : Schema} {field : Field} {a : Atom} {body bytes : Bytes}

theorem readDelimited_form (h : Delimited body bytes) (rest : Bytes) :
    readDelimited schema (bytes ++ rest) = .ok (body, rest) := by
  obtain ⟨length, hlength, rfl⟩ := h
  rw [readDelimited, List.append_assoc, readVarint, Varint.decode_form hlength]
  simp only [ok_bind]
  rw [if_pos (by simp), List.take_left, List.drop_left]
  rfl

theorem readFixed_littleEndian {width n : Nat} (h : n < 256 ^ width) (rest : Bytes) :
    readFixed schema width (Bytes.littleEndian width n ++ rest) = .ok (n, rest) := by
  have hlen := Bytes.littleEndian_length width n
  rw [readFixed, if_pos (by simp), List.take_left' hlen, List.drop_left' hlen,
    Bytes.ofLittleEndian_littleEndian, Nat.mod_eq_of_lt h]

/-- **Every form of a value** is read for the value. -/
theorem readAtom_form (h : AtomForm field.kind a bytes) (rest : Bytes) :
    readAtom schema field field.kind.wireType (bytes ++ rest) = .ok (a, rest) := by
  cases h with
  | varint hn hform =>
    rw [FieldKind.wireType_of_numberOf? hn, readAtom, readVarint, Varint.decode_form hform]
    simp only [ok_bind, FieldKind.atomOfVarint_numberOf? hn]
    rfl
  | word32 hn =>
    obtain ⟨hsmall, hatom⟩ := FieldKind.atomOfWord32_word32Of? hn
    rw [FieldKind.wireType_of_word32Of? hn, readAtom, readFixed_littleEndian hsmall]
    simp only [ok_bind, hatom]
    rfl
  | word64 hn =>
    obtain ⟨hsmall, hatom⟩ := FieldKind.atomOfWord64_word64Of? hn
    rw [FieldKind.wireType_of_word64Of? hn, readAtom, readFixed_littleEndian hsmall]
    simp only [ok_bind, hatom]
    rfl
  | delimited hbody hform =>
    cases hkind : field.kind <;> rw [hkind] at hbody <;> cases a <;> cases hbody
    case delimited.string.string.refl s =>
      rw [FieldKind.wireType, readAtom, readDelimited_form hform]
      simp only [ok_bind, hkind, Utf8.decode?_encode]
      rfl
    case delimited.bytes.bytes.refl b =>
      rw [FieldKind.wireType, readAtom, readDelimited_form hform]
      simp only [ok_bind, hkind]
      rfl

/-- Contents that nothing is known of are passed over. -/
theorem skip_form {wireType : WireType} {bytes : Bytes} (h : Contents wireType bytes)
    (rest : Bytes) : skip schema wireType (bytes ++ rest) = .ok rest := by
  cases h with
  | varint hform =>
    rw [skip, readVarint, Varint.decode_form hform]
    rfl
  | word32 hlen =>
    rw [skip, readFixed, if_pos (by simp [hlen]), List.drop_left' hlen]
    rfl
  | word64 hlen =>
    rw [skip, readFixed, if_pos (by simp [hlen]), List.drop_left' hlen]
    rfl
  | delimited hbody =>
    rw [skip, readDelimited_form hbody]
    rfl

end Message

theorem RecordForm.repeated_of_run {s : Schema} {number : Nat} {atoms : List Atom} {bytes : Bytes}
    (h : RecordForm s (.run number atoms) bytes) :
    ∃ f, s.fieldByNumber? number = some f ∧ f.repeated = true := by
  cases h with
  | run hf hrepeated => exact ⟨_, hf, hrepeated⟩

/-! ## Reading a record -/

/-- What reading a record adds to a draft. -/
def WireRecord.entry (s : Schema) : WireRecord → Message.Entry
  | .value number v =>
    match s.fieldByNumber? number with
    | some f => if f.repeated then .more number [v] else .single number v
    | none => .nothing
  | .run number atoms => .more number (atoms.map .atom)
  | .stray => .nothing

namespace Message

variable {schema : Schema} {field : Field} {nested : ReadNested} {record : WireRecord}
  {bytes : Bytes}

theorem runStep_advances : Advances (runStep schema field) where
  front := fun values => (readAtom_takesFront _).bind fun a => .pure (values ++ [.atom a])
  nonempty := by
    intro values r h
    obtain ⟨⟨a, rest⟩, ha, -⟩ := bind_eq_ok.mp h
    cases hwire : field.kind.wireType <;> rw [hwire] at ha <;> cases ha

/-- A run is read value by value. -/
theorem consumeAll_runStep {pieces : List (Atom × Bytes)}
    (h : ∀ p ∈ pieces, AtomForm field.kind p.1 p.2) :
    consumeAll (runStep schema field) [] (joined pieces) =
      .ok ((pieces.map Prod.fst).map .atom) := by
  have hadvances : Advances (runStep schema field) := runStep_advances
  have hread : ∀ p ∈ pieces, ∀ values rest, runStep schema field values (p.2 ++ rest) =
      .ok (values ++ [Value.atom p.1], rest) := by
    intro p hp values rest
    rw [runStep, readAtom_form (h p hp)]
    rfl
  rw [hadvances.consumeAll_pieces (fun values a => values ++ [.atom a]) pieces [] hread,
    List.foldl_append_eq_append, List.nil_append, ← List.flatMap_def, ← List.map_eq_flatMap]

theorem readValue_form {v : Value} (h : ValueForm schema field v bytes)
    (hnested : ∀ m body, v = .message m → MessageForm m body → nested m.schema body = .ok m)
    (rest : Bytes) :
    readValue nested schema field field.kind.wireType (bytes ++ rest) = .ok (v, rest) := by
  rw [readValue, checkWireType, if_pos rfl, ok_bind]
  cases h with
  | @atom s f a bytes ha =>
    have hread : readAtom schema field _ _ = _ := readAtom_form ha rest
    cases hkind : field.kind
    case message =>
      rw [hkind] at ha
      cases ha with
      | varint h => cases a <;> cases h
      | word32 h => cases a <;> cases h
      | word64 h => cases a <;> cases h
      | delimited h => cases a <;> cases h
    all_goals
      rw [hkind] at hread
      simp only [hread]
      rfl
  | @message s f m body bytes hschema hm hbody =>
    cases hkind : field.kind
    case message =>
      simp only [readDelimited_form hbody, ok_bind, hschema, hnested m body rfl hm]
      rfl
    all_goals
      rw [Schema.messageSchema?, hkind] at hschema
      cases hschema

/-- **Every form of a record** is read for what the record holds. -/
theorem readEntry_form (h : RecordForm schema record bytes)
    (hnested : ∀ number m body, record = .value number (.message m) → MessageForm m body →
      nested m.schema body = .ok m) (rest : Bytes) :
    readEntry nested schema (bytes ++ rest) = .ok (record.entry schema, rest) := by
  cases h with
  | @value s f number v key bytes hf hkey hv =>
    have hnumber := fieldByNumber?_number hf
    have hsingle : (f.repeated && f.kind.wireType == .lengthDelimited && f.kind.isPackable) =
        false := by
      cases f.kind <;> simp [FieldKind.wireType, FieldKind.isPackable]
    have hread := readValue_form hv (fun m body hm => hnested number m body (congrArg _ hm)) rest
    rw [readEntry, List.append_assoc, FieldKey.decode_form hkey]
    simp only [Except.mapError, ok_bind, hf, hsingle, hread, hnumber, WireRecord.entry]
    rfl
  | @run s f number pieces key bytes hf hrepeated hpackable hkey hatoms hbody =>
    have hnumber := fieldByNumber?_number hf
    rw [readEntry, List.append_assoc, FieldKey.decode_form hkey]
    simp only [Except.mapError, ok_bind, hf, hrepeated, hpackable, hnumber, WireRecord.entry,
      readDelimited_form hbody, consumeAll_runStep hatoms]
    rfl
  | @stray s key bytes contents hf hkey hcontents =>
    rw [readEntry, List.append_assoc, FieldKey.decode_form hkey]
    simp only [Except.mapError, ok_bind, hf, WireRecord.entry, skip_form hcontents]
    rfl

end Message

end CellFilter
