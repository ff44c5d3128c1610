import CellFilter.Proofs.Message.Agreement
import CellFilter.Proofs.Message.Conformance
import CellFilter.Proofs.Message.Faults
import CellFilter.Proofs.Schema.WellFormed

/-!
# Values meet values of their sort

A value that a message is given for a field comes upon what the field holds already, and a message
would take the place of anything that is no message.  That never happens: whatever was read or merged
conforms to its schema, even if that declares a number twice, and of the values of one field all are
messages, all are lists, or none is either.  The same holds for whatever was read so far at any point
of the bytes.

* `Value.Meets`, `Message.Meets`: what a value or a message comes upon in the course of a merge.
* `Value.Conforms.meets`: values of one field meet.
* `Draft.Conforms.meets`: so do an entry and the draft that it is added to.
* `Message.Arises`: the messages that reading and merging yield.
* `Message.arising_conform`: **what they are, what they meet and what reading fails with**.
-/

namespace CellFilter

open Outcome

mutual

/-- A value comes upon nothing or upon a value of its own sort, and so on inside of messages. -/
def Value.Meets (existing : Option Value) : Value → Prop
  | .atom _ => ∀ v ∈ existing, ∃ a, v = .atom a
  | .message later =>
    match existing with
    | none => True
    | some (.message earlier) => earlier.schema = later.schema ∧ Message.Meets earlier later
    | some _ => False
  | .list _ => ∀ v ∈ existing, ∃ values, v = .list values

/-- Every field of the later message comes upon a value of its own sort. -/
def Message.Meets (earlier : Message) : Message → Prop
  | ⟨_, later⟩ => FieldsMeet earlier.fields later

/-- Fields that are merged in one by one come upon values of their own sort. -/
def FieldsMeet (fields : List (Nat × Value)) : List (Nat × Value) → Prop
  | [] => True
  | (number, value) :: rest =>
    Value.Meets (fields.lookup number) value ∧
      FieldsMeet (putField fields number (Value.merge (fields.lookup number) value)) rest

end

mutual

/-- Values of one field meet. -/
theorem Value.Conforms.meets : ∀ {v : Value} {s : Schema} {f : Field} {repeated : Bool}
    {e : Option Value}, (∀ w ∈ e, w.Conforms s f repeated) → v.Conforms s f repeated → v.Meets e
  | .atom a, s, f, repeated, e, he, h => by
    simp only [Value.Conforms] at h
    simp only [Value.Meets]
    intro w hw
    have hwc := he w hw
    cases w with
    | atom b => exact ⟨b, rfl⟩
    | message m =>
      simp only [Value.Conforms] at hwc
      exact absurd h.2 (FieldKind.not_holds hwc.2.1 a)
    | list vs =>
      simp only [Value.Conforms, h.1, Bool.false_eq_true, false_and] at hwc
  | .message m, s, f, repeated, none, _, _ => by simp only [Value.Meets]
  | .message m, s, f, repeated, some w, he, h => by
    simp only [Value.Conforms] at h
    obtain ⟨hone, hschema, hm⟩ := h
    have hwc := he w rfl
    cases w with
    | atom b =>
      simp only [Value.Conforms] at hwc
      exact absurd hwc.2 (FieldKind.not_holds hschema b)
    | message earlier =>
      simp only [Value.Conforms] at hwc
      have hsame : earlier.schema = m.schema := Option.some.inj (hwc.2.1.symm.trans hschema)
      simp only [Value.Meets]
      exact ⟨hsame, Message.Conforms.meets hwc.2.2 hm hsame⟩
    | list vs => simp only [Value.Conforms, hone, Bool.false_eq_true, false_and] at hwc
  | .list vs, s, f, repeated, e, he, h => by
    simp only [Value.Conforms] at h
    simp only [Value.Meets]
    intro w hw
    have hwc := he w hw
    cases w with
    | atom b => simp only [Value.Conforms, h.1, Bool.true_eq_false, false_and] at hwc
    | message m => simp only [Value.Conforms, h.1, Bool.true_eq_false, false_and] at hwc
    | list values => exact ⟨values, rfl⟩

/-- **Messages of one schema** meet. -/
theorem Message.Conforms.meets : ∀ {m e : Message}, e.Conforms → m.Conforms →
    e.schema = m.schema → Message.Meets e m
  | ⟨s, gs⟩, ⟨t, fs⟩, he, hm, hst => by
    simp only [Message.schema] at hst
    subst hst
    simp only [Message.Conforms] at he hm
    simp only [Message.Meets, Message.fields]
    exact FieldsConform.meets he.2 hm.2

theorem FieldsConform.meets : ∀ {gs fs : List (Nat × Value)} {s : Schema}, FieldsConform s fs →
    FieldsConform s gs → FieldsMeet fs gs
  | [], fs, s, _, _ => by simp only [FieldsMeet]
  | (n, v) :: gs, fs, s, hf, hg => by
    simp only [FieldsConform] at hg
    obtain ⟨⟨f, hfield, hv⟩, hrest⟩ := hg
    simp only [FieldsMeet]
    have hmerged := Value.Conforms.merge (hf.lookup hfield) hv
    exact ⟨Value.Conforms.meets (hf.lookup hfield) hv,
      FieldsConform.meets (hf.putField hfield hmerged) hrest⟩

end

namespace Message

variable {s : Schema} {m n : Message} {d : Draft} {entry : Entry}

/-- All present fields of a message that conforms are declared. -/
theorem Conforms.presentFields_map (h : m.Conforms) :
    m.presentFields.map (fun e => (e.1.number, e.2)) = m.fields := by
  obtain ⟨s, fs⟩ := m
  have hfields := fieldsConform_iff.mp h.2
  simp only [presentFields, Message.fields, Message.schema]
  clear h
  induction fs with
  | nil => rfl
  | cons e fs ih =>
    obtain ⟨⟨f, hf, -⟩, hrest⟩ := List.forall_mem_cons.mp hfields
    rw [List.filterMap_cons, hf, Option.map_some, List.map_cons, ih hrest,
      fieldByNumber?_number hf]

/-! ## While a message is read -/

/-- What a field holds comes upon a value of its own sort in a draft, and the number of a single
field is none of a repeated one. -/
def Entry.Meets (d : Draft) : Entry → Prop
  | .nothing => True
  | .single number value =>
    d.lists.lookup number = none ∧ Value.Meets (d.singles.lookup number) value
  | .more number values =>
    d.singles.lookup number = none ∧ Value.Meets (d.lists.lookup number) (.list values)

/-- What is read meets what was read before. -/
theorem Draft.Conforms.meets (hd : d.Conforms s) (h : entry.Conforms s) : entry.Meets d := by
  cases entry with
  | nothing => trivial
  | single number value =>
    obtain ⟨f, hf, hone, hv⟩ := h
    have hearlier := hone ▸ hd.singles.conform.lookup hf
    refine ⟨hd.lists.lookup_eq_none fun g hg => ?_, hv.meets hearlier⟩
    cases hf.symm.trans hg
    simp [hone]
  | more number values =>
    obtain ⟨f, hf, hmany, hvs⟩ := h
    have hv : (Value.list values).Conforms s f true := ⟨rfl, hvs⟩
    have hearlier := hmany ▸ hd.lists.conform.lookup hf
    refine ⟨hd.singles.lookup_eq_none fun g hg => ?_, hv.meets hearlier⟩
    cases hf.symm.trans hg
    simp [hmany]

/-! ## Whatever was read or merged -/

/-- The messages of a schema that reading and merging yield. -/
inductive Arises (s : Schema) : Message → Prop
  | read {bytes : Bytes} {m : Message} : decode s bytes = .ok m → Arises s m
  | merge {m n : Message} : Arises s m → Arises s n → Arises s (Message.merge m n)

theorem Arises.conforms (h : Arises s m) : m.schema = s ∧ m.Conforms := by
  induction h with
  | read h => exact decodeWithin_conforms _ s _ _ h
  | merge _ _ ihm ihn =>
    exact ⟨(merge_schema _ _).trans ihm.1, ihm.2.merge ihn.2 (ihm.1.trans ihn.1.symm)⟩

/-- No field of a pool that units were added to refers to nothing. -/
theorem not_dangles {pool : SchemaPool} (h : pool.WellFormed) : ¬ pool.Dangles := by
  rintro ⟨m, hm, f, hf, i, hkind, hout⟩
  exact absurd ((h.kinds m hm f hf).1 i hkind) (Nat.not_lt.mpr hout)

/-- **Messages of a reachable pool.**  Whatever reading and merging yield conforms to its schema, and
all of it is declared.  Two such messages meet, and so do what was read so far, at any point of the
bytes, and the field that is read next.  Reading never fails for the lack of a type or because a kind
had no values of a shape. -/
theorem arising_conform (hs : s.pool.Reachable) :
    (∀ m, Arises s m → m.schema = s ∧ m.Conforms ∧
      m.presentFields.map (fun e => (e.1.number, e.2)) = m.fields) ∧
    (∀ m n, Arises s m → Arises s n → Message.Meets m n) ∧
    (∀ levels front d, consumeAll (step (decodeWithin levels) s) .empty front = .ok d →
      (∀ back, decodeWithin (levels + 1) s (front ++ back) =
        (consumeAll (step (decodeWithin levels) s) d back).map fun d => d.finish s) ∧
      ∀ back entry rest, readEntry (decodeWithin levels) s back = .ok (entry, rest) →
        entry.Meets d) ∧
    ∀ levels bytes message fault,
      decodeWithin levels s bytes = .error (.malformedMessage message fault) →
        fault.isInternal = false := by
  refine ⟨fun m hm => ?_, fun m n hm hn => ?_, fun levels front d hd => ⟨fun back => ?_,
    fun back entry rest h => ?_⟩, fun levels bytes message fault h => ?_⟩
  · obtain ⟨hschema, hconforms⟩ := hm.conforms
    exact ⟨hschema, hconforms, hconforms.presentFields_map⟩
  · obtain ⟨hm, hmconforms⟩ := hm.conforms
    obtain ⟨hn, hnconforms⟩ := hn.conforms
    exact hmconforms.meets hnconforms (hm.trans hn.symm)
  · rw [decodeWithin, step_advances.consumeAll_append hd]
    cases consumeAll (step (decodeWithin levels) s) d back <;> rfl
  · have hdraft : d.Conforms s :=
      consumeAll_keeps (fun _ _ _ he hr => step_conforms (decodeWithin_conforms levels) he hr)
        Draft.conforms_empty hd
    exact hdraft.meets (readEntry_conforms (decodeWithin_conforms levels) h)
  · cases decodeWithin_fails levels s bytes _ h with
    | malformed _ hfault => exact hfault
    | dangling _ hdangles => exact absurd hdangles (not_dangles hs.built.wellFormed)

/-- A unit with a message that declares a number twice, for a number and for a message. -/
def twinUnit : FileDescriptor where
  name? := some "twin.proto"
  package? := some "demo"
  dependencies := []
  messages := [⟨some "Twin",
    [⟨some "count", none, some 1, some 1, some 5, none, none, []⟩,
      ⟨some "inner", none, some 1, some 1, some 11, some ".demo.Twin", none, []⟩,
      ⟨some "samples", none, some 2, some 3, some 3, none, none, []⟩], [], [], []⟩]
  enums := []
  carried := []

/-- The pool of the unit. -/
def twinPool : SchemaPool where
  files := [twinUnit]
  messages := [⟨"demo.Twin", 0, [0],
    [⟨"count", "demo.Twin.count", 1, .int32, false, none⟩,
      ⟨"inner", "demo.Twin.inner", 1, .message 0, false, none⟩,
      ⟨"samples", "demo.Twin.samples", 2, .int64, true, none⟩]⟩]
  enums := []
  types := [("demo.Twin", .message 0)]

/-- The message of the unit. -/
def twinSchema : Schema := ⟨twinPool, 0, Nat.one_pos⟩

/-- Two occurrences of the message field, which merge, and a run of samples. -/
def twinFirst : Message := ⟨twinSchema, [
  (1, .message ⟨twinSchema, [(2, .list [.atom (.i64 5), .atom (.i64 7)])]⟩),
  (2, .list [.atom (.i64 8), .atom (.i64 9)])]⟩

/-- One more occurrence. -/
def twinSecond : Message :=
  ⟨twinSchema, [(1, .message ⟨twinSchema, [(2, .list [.atom (.i64 1)])]⟩)]⟩

/-- The number that is declared twice is that of the message field: messages meet messages under it,
and a number there is refused for its shape. -/
theorem arising_conform_twin : twinSchema.pool.Reachable ∧
    decode twinSchema [10, 2, 16, 5, 10, 2, 16, 7, 18, 2, 8, 9] = .ok twinFirst ∧
    decode twinSchema [10, 2, 16, 1] = .ok twinSecond ∧
    (Message.merge twinFirst twinSecond).Conforms ∧ Message.Meets twinFirst twinSecond ∧
    decode twinSchema [8, 1] = .error (.malformedMessage "demo.Twin"
      (.unexpectedWireType "inner" .varint .lengthDelimited)) ∧
    (MessageFault.unexpectedWireType "inner" .varint .lengthDelimited).isInternal = false := by
  have hpool : twinSchema.pool.Reachable :=
    .add .empty (show SchemaPool.empty.addFile twinUnit = .ok twinPool by rfl)
  have hfirst : decode twinSchema [10, 2, 16, 5, 10, 2, 16, 7, 18, 2, 8, 9] = .ok twinFirst := rfl
  have hsecond : decode twinSchema [10, 2, 16, 1] = .ok twinSecond := rfl
  have hrefused : decode twinSchema [8, 1] = .error (.malformedMessage "demo.Twin"
    (.unexpectedWireType "inner" .varint .lengthDelimited)) := rfl
  obtain ⟨hconforms, hmeets, -, hfaults⟩ := arising_conform hpool
  exact ⟨hpool, hfirst, hsecond, (hconforms _ (.merge (.read hfirst) (.read hsecond))).2.1,
    hmeets _ _ (.read hfirst) (.read hsecond), hrefused, hfaults _ _ _ _ hrefused⟩

end Message

end CellFilter
