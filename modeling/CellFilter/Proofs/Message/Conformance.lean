import CellFilter.Proofs.Message.Merging
import CellFilter.Proofs.Wire.Front

/-!
# Messages as they are read

Reading a message goes field by field, and what one field yields depends neither on the bytes behind
it nor on the fields before it: reading the field is one thing, adding it to the draft another.
What is read holds what its schema allows.

* `readEntry`, `step_eq`: reading one field, apart from the draft that it is added to.
* `readEntry_takesFront`: a field is read whatever follows.
* `decodeWithin_conforms`: **what is read conforms** to its schema.
-/

namespace CellFilter

open Outcome

namespace Message

variable {schema : Schema} {field : Field} {nested : ReadNested}

theorem readVarint_takesFront : TakesFront readVarint := by
  intro input n rest h
  unfold readVarint at h
  cases hvarint : Varint.decode input with
  | none => rw [hvarint] at h; cases h
  | some r =>
    rw [hvarint] at h
    cases h
    obtain ⟨taken, rfl, htaken⟩ := Varint.decodeWithin_append 10 _ _ _ hvarint
    refine ⟨taken, rfl, fun more => ?_⟩
    rw [readVarint, Varint.decode, htaken]

/-- So many bytes, if there are so many. -/
theorem take_takesFront {α : Type} (width : Nat) (value : Bytes → α) (cause : MessageFault) :
    TakesFront fun input => if width ≤ input.length then
      (Pure.pure (value (input.take width), input.drop width) : Except FilterError (α × Bytes))
      else fault schema cause := by
  intro input a rest h
  dsimp only at h
  by_cases hwidth : width ≤ input.length
  · rw [if_pos hwidth] at h
    cases h
    refine ⟨input.take width, (List.take_append_drop width input).symm, fun more => ?_⟩
    have hlen : (input.take width).length = width := List.length_take_of_le hwidth
    have htake : (input.take width ++ more).take width = input.take width :=
      List.take_left' hlen
    have hdrop : (input.take width ++ more).drop width = more := List.drop_left' hlen
    dsimp only
    rw [if_pos (by rw [List.length_append]; omega), htake, hdrop]
    rfl
  · rw [if_neg hwidth] at h
    cases h

theorem readDelimited_takesFront : TakesFront (readDelimited schema) :=
  readVarint_takesFront.bind fun n => take_takesFront n id (.lengthPastEnd n)

theorem readFixed_takesFront (width : Nat) : TakesFront (readFixed schema width) :=
  take_takesFront width Bytes.ofLittleEndian .fixedWidthPastEnd

theorem readAtom_takesFront (wireType : WireType) :
    TakesFront (readAtom schema field wireType) := by
  have hnumber : ∀ {f : Bytes → Except FilterError (Nat × Bytes)}, TakesFront f →
      ∀ atom : Nat → Option Atom, TakesFront fun input => f input >>= fun r =>
        ofKind schema field wireType (atom r.1) >>= fun a => Pure.pure (a, r.2) := by
    intro f hf atom
    refine hf.bind fun n => ?_
    dsimp only
    exact .lift (g := fun a rest => Pure.pure (a, rest)) _ fun a => .pure a
  cases wireType with
  | varint => exact hnumber readVarint_takesFront (atomOfVarint field.kind)
  | thirtyTwoBit =>
    exact hnumber (readFixed_takesFront 4) fun n => atomOfWord32 field.kind n.toUInt32
  | sixtyFourBit =>
    exact hnumber (readFixed_takesFront 8) fun n => atomOfWord64 field.kind n.toUInt64
  | lengthDelimited =>
    refine readDelimited_takesFront.bind fun body => ?_
    dsimp only
    cases field.kind <;> dsimp only <;> try exact .error _
    · cases Utf8.decode? body with
      | none => exact .error _
      | some s => exact .pure _
    · exact .pure _
  | startGroup => exact .error _
  | endGroup => exact .error _

theorem skip_takesFront {α : Type} (wireType : WireType) (a : α) :
    TakesFront fun input => skip schema wireType input >>= fun rest =>
      (Pure.pure (a, rest) : Except FilterError (α × Bytes)) := by
  have hsecond : ∀ {β : Type} {f : Bytes → Except FilterError (β × Bytes)}, TakesFront f →
      TakesFront fun input => (f input >>= fun r => Pure.pure r.2) >>= fun rest =>
        (Pure.pure (a, rest) : Except FilterError (α × Bytes)) := by
    intro β f hf
    have hone : (fun input => (f input >>= fun r => Pure.pure r.2) >>= fun rest =>
        (Pure.pure (a, rest) : Except FilterError (α × Bytes))) =
          fun input => f input >>= fun r => Pure.pure (a, r.2) := by
      funext input
      cases f input <;> rfl
    rw [hone]
    exact hf.bind (g := fun r => Pure.pure (a, r.2)) fun _ => .pure a
  cases wireType with
  | varint => exact hsecond readVarint_takesFront
  | thirtyTwoBit => exact hsecond (readFixed_takesFront 4)
  | sixtyFourBit => exact hsecond (readFixed_takesFront 8)
  | lengthDelimited => exact hsecond readDelimited_takesFront
  | startGroup => exact .error _
  | endGroup => exact .error _

theorem readValue_takesFront (wireType : WireType) :
    TakesFront (readValue nested schema field wireType) := by
  unfold readValue
  refine .lift _ fun _ => ?_
  cases field.kind
  case message =>
    refine readDelimited_takesFront.bind fun body => ?_
    dsimp only
    cases schema.messageSchema? field with
    | none => exact .error _
    | some inner => exact .lift (nested inner body) fun m => .pure _
  all_goals exact (readAtom_takesFront wireType).bind fun a => .pure _

/-! ## One field -/

/-- What a field read off the front adds to a draft. -/
inductive Entry where
  | nothing
  | single (number : Nat) (value : Value)
  | more (number : Nat) (values : List Value)

/-- Adds what a field holds. -/
def Draft.add (d : Draft) : Entry → Draft
  | .nothing => d
  | .single number value => d.addSingle number value
  | .more number values => d.addAll number values

/-- Reads one field off the front. -/
def readEntry (nested : ReadNested) (schema : Schema) (bytes : Bytes) :
    Except FilterError (Entry × Bytes) := do
  let (key, rest) ← (FieldKey.decode bytes).mapError .undecodable
  match schema.fieldByNumber? key.number with
  | none => return (.nothing, ← skip schema key.wireType rest)
  | some field =>
    if field.repeated && key.wireType == .lengthDelimited && field.kind.isPackable then
      let (run, rest) ← readDelimited schema rest
      let values ← consumeAll (runStep schema field) [] run
      return (.more field.number values, rest)
    else
      let (value, rest) ← readValue nested schema field key.wireType rest
      return (if field.repeated then .more field.number [value]
        else .single field.number value, rest)

/-- A step reads a field and adds what it holds. -/
theorem step_eq (nested : ReadNested) (schema : Schema) (d : Draft) (bytes : Bytes) :
    step nested schema d bytes = (readEntry nested schema bytes).map fun r => (d.add r.1, r.2) := by
  unfold step readEntry
  cases (FieldKey.decode bytes).mapError FilterError.undecodable with
  | error e => rfl
  | ok r =>
    obtain ⟨key, rest⟩ := r
    simp only [ok_bind]
    cases schema.fieldByNumber? key.number with
    | none =>
      dsimp only
      cases skip schema key.wireType rest <;> rfl
    | some field =>
      dsimp only
      split_ifs with hrun hrepeated
      · cases readDelimited schema rest with
        | error e => rfl
        | ok run =>
          simp only [ok_bind]
          cases consumeAll (runStep schema field) [] run.1 <;> rfl
      · cases readValue nested schema field key.wireType rest <;> rfl
      · cases readValue nested schema field key.wireType rest <;> rfl

theorem readEntry_takesFront : TakesFront (readEntry nested schema) := by
  unfold readEntry
  refine (FieldKey.decode_takesFront.mapError _).bind fun key => ?_
  dsimp only
  cases schema.fieldByNumber? key.number with
  | none => exact skip_takesFront key.wireType _
  | some field =>
    dsimp only
    split_ifs with hrun hrepeated
    · refine readDelimited_takesFront.bind fun run => ?_
      dsimp only
      exact .lift (g := fun values rest => Pure.pure (Entry.more field.number values, rest)) _
        fun values => .pure _
    · exact (readValue_takesFront key.wireType).bind fun value =>
        .pure (Entry.more field.number [value])
    · exact (readValue_takesFront key.wireType).bind fun value =>
        .pure (Entry.single field.number value)

theorem step_advances : Advances (step nested schema) where
  front := by
    intro d
    have hread : step nested schema d = fun bytes =>
        readEntry nested schema bytes >>= fun r => Pure.pure (d.add r.1, r.2) := by
      funext bytes
      rw [step_eq]
      cases readEntry nested schema bytes <;> rfl
    rw [hread]
    exact readEntry_takesFront.bind fun entry => .pure (d.add entry)
  nonempty := by
    intro d r h
    cases h

/-! ## What is read conforms -/

/-- Nested messages are read as messages of their schemas. -/
def NestedConforms (nested : ReadNested) : Prop :=
  ∀ s bytes m, nested s bytes = .ok m → m.schema = s ∧ m.Conforms

theorem readAtom_holds {wireType : WireType} {bytes rest : Bytes} {a : Atom}
    (h : readAtom schema field wireType bytes = .ok (a, rest)) : field.kind.Holds a := by
  have hnumber : ∀ {x : Except FilterError (Nat × Bytes)} (atom : Nat → Option Atom),
      (∀ n b, atom n = some b → field.kind.Holds b) →
        (x >>= fun r => ofKind schema field wireType (atom r.1) >>= fun a => Pure.pure (a, r.2)) =
          .ok (a, rest) → field.kind.Holds a := by
    intro x atom hatom h
    obtain ⟨r, -, h⟩ := bind_eq_ok.mp h
    obtain ⟨b, hb, h⟩ := bind_eq_ok.mp h
    cases h
    cases hr : atom r.1 with
    | none => rw [hr] at hb; cases hb
    | some c =>
      rw [hr] at hb
      cases hb
      exact hatom _ _ hr
  cases wireType with
  | varint =>
    refine hnumber (atomOfVarint field.kind) (fun n b hb => ?_) h
    cases hkind : field.kind <;> rw [hkind] at hb <;> cases hb <;> trivial
  | thirtyTwoBit =>
    refine hnumber (fun n => atomOfWord32 field.kind n.toUInt32) (fun n b hb => ?_) h
    cases hkind : field.kind <;> rw [hkind] at hb <;> cases hb <;> trivial
  | sixtyFourBit =>
    refine hnumber (fun n => atomOfWord64 field.kind n.toUInt64) (fun n b hb => ?_) h
    cases hkind : field.kind <;> rw [hkind] at hb <;> cases hb <;> trivial
  | lengthDelimited =>
    obtain ⟨⟨body, left⟩, -, h⟩ := bind_eq_ok.mp h
    dsimp only at h
    cases hkind : field.kind <;> rw [hkind] at h <;> dsimp only at h <;> try cases h
    · cases htext : Utf8.decode? body <;> rw [htext] at h <;> cases h
      trivial
    · trivial
  | startGroup => cases h
  | endGroup => cases h

theorem readValue_conforms (hn : NestedConforms nested) {wireType : WireType} {bytes rest : Bytes}
    {v : Value} (h : readValue nested schema field wireType bytes = .ok (v, rest)) :
    v.Conforms schema field false := by
  have hatom : (readAtom schema field wireType bytes >>= fun r =>
      Pure.pure (Value.atom r.1, r.2)) = .ok (v, rest) → v.Conforms schema field false := by
    intro h
    obtain ⟨r, hr, h⟩ := bind_eq_ok.mp h
    cases h
    exact ⟨rfl, readAtom_holds hr⟩
  unfold readValue at h
  obtain ⟨-, -, h⟩ := bind_eq_ok.mp h
  cases hkind : field.kind <;> rw [hkind] at h
  case message =>
    obtain ⟨⟨body, left⟩, -, h⟩ := bind_eq_ok.mp h
    dsimp only at h
    cases hschema : schema.messageSchema? field with
    | none => rw [hschema] at h; cases h
    | some inner =>
      rw [hschema] at h
      obtain ⟨m, hm, h⟩ := bind_eq_ok.mp h
      cases h
      obtain ⟨rfl, hconforms⟩ := hn _ _ _ hm
      exact ⟨rfl, hschema, hconforms⟩
  all_goals exact hatom h

/-- What an entry may hold. -/
def Entry.Conforms (s : Schema) : Entry → Prop
  | .nothing => True
  | .single number value =>
    ∃ f, s.fieldByNumber? number = some f ∧ f.repeated = false ∧ value.Conforms s f false
  | .more number values =>
    ∃ f, s.fieldByNumber? number = some f ∧ f.repeated = true ∧ ListConforms s f values

theorem fieldByNumber?_number {number : Nat} (h : schema.fieldByNumber? number = some field) :
    field.number = number := by
  simpa using List.find?_some h

theorem readEntry_conforms (hn : NestedConforms nested) {bytes rest : Bytes} {entry : Entry}
    (h : readEntry nested schema bytes = .ok (entry, rest)) : entry.Conforms schema := by
  unfold readEntry at h
  obtain ⟨⟨key, left⟩, -, h⟩ := bind_eq_ok.mp h
  dsimp only at h
  cases hfield : schema.fieldByNumber? key.number with
  | none =>
    rw [hfield] at h
    dsimp only at h
    obtain ⟨left, -, h⟩ := bind_eq_ok.mp h
    cases h
    trivial
  | some field =>
    rw [hfield] at h
    dsimp only at h
    have hnumber := fieldByNumber?_number hfield
    have hdeclared : schema.fieldByNumber? field.number = some field := hnumber.symm ▸ hfield
    split_ifs at h with hrun hrepeated
    · obtain ⟨⟨run, left⟩, -, h⟩ := bind_eq_ok.mp h
      obtain ⟨values, hvalues, h⟩ := bind_eq_ok.mp h
      cases h
      have hrepeated : field.repeated = true := by
        rw [Bool.and_assoc, Bool.and_eq_true] at hrun
        exact hrun.1
      refine ⟨field, hdeclared, hrepeated, consumeAll_keeps (P := ListConforms schema field)
        (s := []) (fun vs input r hvs hr => ?_) trivial hvalues⟩
      obtain ⟨⟨a, left⟩, ha, hr⟩ := bind_eq_ok.mp hr
      cases hr
      exact hvs.append ⟨⟨rfl, readAtom_holds ha⟩, trivial⟩
    · obtain ⟨⟨v, left⟩, hv, h⟩ := bind_eq_ok.mp h
      cases h
      exact ⟨field, hdeclared, hrepeated, readValue_conforms hn hv, trivial⟩
    · obtain ⟨⟨v, left⟩, hv, h⟩ := bind_eq_ok.mp h
      cases h
      exact ⟨field, hdeclared, Bool.eq_false_iff.mpr hrepeated, readValue_conforms hn hv⟩

/-! ## Drafts -/

/-- Declared fields in order that are all single or all repeated, with what they may hold. -/
structure FieldsOf (s : Schema) (repeated : Bool) (fs : List (Nat × Value)) : Prop where
  ascending : Ascending fs
  conform : FieldsConform s fs
  sort : ∀ n v, fs.lookup n = some v → ∃ f, s.fieldByNumber? n = some f ∧ f.repeated = repeated

namespace FieldsOf

variable {repeated : Bool} {fs gs : List (Nat × Value)} {number : Nat} {value : Value}

theorem nil : FieldsOf schema repeated [] where
  ascending := .nil
  conform := trivial
  sort := fun n v h => by cases h

/-- A value of a field is merged in. -/
theorem put (h : FieldsOf schema repeated fs) (hf : schema.fieldByNumber? number = some field)
    (hsort : field.repeated = repeated) (hv : value.Conforms schema field repeated) :
    FieldsOf schema repeated (putField fs number (Value.merge (fs.lookup number) value)) where
  ascending := h.ascending.putField _ _
  conform := by
    subst hsort
    exact h.conform.putField hf (Value.Conforms.merge (h.conform.lookup hf) hv)
  sort := by
    intro k w hk
    rw [lookup_putField] at hk
    by_cases hkn : k = number
    · exact ⟨field, hkn ▸ hf, hsort⟩
    · rw [if_neg hkn] at hk
      exact h.sort k w hk

theorem merge (hf : FieldsOf schema repeated fs) (hg : FieldsOf schema repeated gs) :
    FieldsOf schema repeated (mergeFields fs gs) where
  ascending := hf.ascending.mergeFields gs
  conform := FieldsConform.merge hf.conform hg.conform
  sort := by
    intro n v hn
    rw [lookup_mergeFields _ hg.ascending] at hn
    cases hlater : gs.lookup n with
    | some w => exact hg.sort n w hlater
    | none =>
      rw [hlater] at hn
      exact hf.sort n v hn

/-- Nothing stands under a number whose field is not of the sort. -/
theorem lookup_eq_none (h : FieldsOf schema repeated fs)
    (hsort : ∀ f, schema.fieldByNumber? number = some f → f.repeated ≠ repeated) :
    fs.lookup number = none := by
  cases hv : fs.lookup number with
  | none => rfl
  | some v =>
    obtain ⟨f, hf, hrepeated⟩ := h.sort number v hv
    exact absurd hrepeated (hsort f hf)

/-- No number has a single value and a list. -/
theorem apart (hlists : FieldsOf schema true fs) (hsingles : FieldsOf schema false gs)
    (h : fs.lookup number = some value) : gs.lookup number = none := by
  obtain ⟨f, hf, hmany⟩ := hlists.sort _ _ h
  refine hsingles.lookup_eq_none fun g hg => ?_
  cases hf.symm.trans hg
  rw [hmany]
  decide

end FieldsOf

namespace Draft

variable {d : Draft}

/-- A draft whose single and repeated fields are what they should be. -/
structure Conforms (s : Schema) (d : Draft) : Prop where
  singles : FieldsOf s false d.singles
  lists : FieldsOf s true d.lists

theorem conforms_empty : empty.Conforms schema := ⟨.nil, .nil⟩

theorem Conforms.add (hd : d.Conforms schema) {entry : Entry} (h : entry.Conforms schema) :
    (d.add entry).Conforms schema := by
  cases entry with
  | nothing => exact hd
  | single n v =>
    obtain ⟨f, hf, hone, hv⟩ := h
    exact ⟨hd.singles.put hf hone hv, hd.lists⟩
  | more n vs =>
    obtain ⟨f, hf, hmany, hvs⟩ := h
    have hv : (Value.list vs).Conforms schema f true := ⟨rfl, hvs⟩
    exact ⟨hd.singles, hd.lists.put hf hmany hv⟩

/-- The fields of the finished message. -/
def finished (d : Draft) : List (Nat × Value) :=
  d.lists.foldl (fun fields entry => putField fields entry.1 entry.2) d.singles

theorem lookup_finished (hd : d.Conforms schema) (k : Nat) :
    d.finished.lookup k = (d.lists.lookup k).or (d.singles.lookup k) := by
  obtain ⟨singles, lists⟩ := d
  have hlists : Ascending lists := hd.lists.ascending
  clear hd
  show (lists.foldl _ singles).lookup k = _
  induction lists generalizing singles with
  | nil => simp
  | cons entry lists ih =>
    obtain ⟨n, v⟩ := entry
    rw [List.foldl_cons, ih _ (List.pairwise_cons.mp hlists).2, lookup_putField]
    by_cases hk : k = n
    · rw [if_pos hk, hk, hlists.lookup_eq_none le_rfl, List.lookup_cons_self]
      rfl
    · rw [if_neg hk, lookup_cons_of_ne hk]

theorem finished_conforms (hd : d.Conforms schema) :
    Ascending d.finished ∧ FieldsConform schema d.finished := by
  obtain ⟨singles, lists⟩ := d
  have hsingles : Ascending singles ∧ FieldsConform schema singles :=
    ⟨hd.singles.ascending, hd.singles.conform⟩
  have hlists : FieldsConform schema lists := hd.lists.conform
  clear hd
  show Ascending (lists.foldl _ singles) ∧ FieldsConform schema (lists.foldl _ singles)
  induction lists generalizing singles with
  | nil => exact hsingles
  | cons entry lists ih =>
    obtain ⟨⟨f, hf, hv⟩, hrest⟩ := hlists
    exact ih _ ⟨hsingles.1.putField _ _, hsingles.2.putField hf hv⟩ hrest

end Draft

/-! ## Whole messages -/

theorem step_conforms (hn : NestedConforms nested) {d : Draft} (hd : d.Conforms schema)
    {bytes : Bytes} {r : Draft × Bytes} (h : step nested schema d bytes = .ok r) :
    r.1.Conforms schema := by
  rw [step_eq] at h
  obtain ⟨entry, hentry, rfl⟩ := map_eq_ok.mp h
  exact hd.add (readEntry_conforms hn hentry)

/-- **What is read** conforms to its schema. -/
theorem decodeWithin_conforms : ∀ levels : Nat, NestedConforms (decodeWithin levels)
  | 0 => fun s bytes m h => by cases h
  | levels + 1 => fun s bytes m h => by
    obtain ⟨d, hd, h⟩ := bind_eq_ok.mp h
    cases h
    have hconforms : d.Conforms s :=
      consumeAll_keeps (fun _ _ _ he hr => step_conforms (decodeWithin_conforms levels) he hr)
        Draft.conforms_empty hd
    exact ⟨rfl, Draft.finished_conforms hconforms⟩

end Message

end CellFilter
