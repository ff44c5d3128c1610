import CellFilter.Proofs.Message.Conformance
import CellFilter.Proofs.Message.Equality
import CellFilter.Proofs.Message.Matching

/-!
# What the modes ask for

One pass over the fields of an operand serves all modes of matching.  It takes the fields of the
value out of a store as it meets them, it stops as soon as the mode allows, and what it found decides
at its end.  When the fields of a message have names of their own, no field of the operand hides
another one, and the pass comes down to three questions: whether all fields of the operand are equal
in the value, whether some are, and whether the value has no others.

* `Message.matchFields_answer`: the pass in these terms.
* `Message.matchBy_eq_answer`: the modes in terms of the present fields of both messages.
* `Message.exact_iff_valueEq`: matching exactly is equality of messages.
* `Message.matchBy_modes`: **the six modes** of matching decoded messages.
-/

namespace CellFilter

open Outcome Schema

/-- What a mode makes of the three questions: whether all fields of the operand are equal in the
value, whether some are, and whether all are and the value has no others. -/
def MatchOp.answer (op : MatchOp) (all some exact : Bool) : Bool :=
  match op with
  | .equal => all
  | .notEqual => !all
  | .any => some
  | .none => !some
  | .exact => exact
  | .notExact => !exact
  | .scalar => false

namespace Message

/-! ## The pass over the operand -/

section Pass

variable {op : MatchOp} {t : Tally} {field : Field} {v : Value} {fields : List (Field × Value)}

/-- The names of fields. -/
def fieldNames (fields : List (Field × Value)) : List String := fields.map fun e => e.1.fullName

namespace Tally

/-- Whether all of the fields are equal in what remains of the value. -/
def meetsAll (t : Tally) (fields : List (Field × Value)) : Bool := fields.all fun e => t.meets e.1 e.2

/-- Whether some of the fields are equal in what remains of the value. -/
def meetsSome (t : Tally) (fields : List (Field × Value)) : Bool := fields.any fun e => t.meets e.1 e.2

/-- What remains of the value behind some fields. -/
def behind (t : Tally) (fields : List (Field × Value)) : List (String × Value) :=
  t.remaining.filter fun k => k.1 ∉ fieldNames fields

/-- What has been seen once a field is done with. -/
def done (t : Tally) (field : Field) (equal : Bool) : Tally where
  remaining := t.remaining.filter fun k => k.1 != field.fullName
  someEqual := t.someEqual || equal
  someDifferent := t.someDifferent || !equal

/-- Fields of other names are met as before. -/
theorem meets_done (hname : field.fullName ∉ fieldNames fields) (equal : Bool) :
    ∀ e ∈ fields, (t.done field equal).meets e.1 e.2 = t.meets e.1 e.2 := by
  intro e he
  have hne : e.1.fullName ≠ field.fullName := by
    intro h
    have hmem : e.1.fullName ∈ fieldNames fields := List.mem_map_of_mem he
    exact hname (h ▸ hmem)
  have hkeep := lookup_filter_key (fun name => name != field.fullName) e.1.fullName t.remaining
  rw [if_pos (by simpa using hne)] at hkeep
  rw [meets, meets, done, hkeep]

theorem meetsAll_done (hname : field.fullName ∉ fieldNames fields) (equal : Bool) :
    (t.done field equal).meetsAll fields = t.meetsAll fields := by
  rw [Bool.eq_iff_iff, meetsAll, meetsAll, List.all_eq_true, List.all_eq_true]
  exact forall₂_congr fun e he => by rw [meets_done hname equal e he]

theorem meetsSome_done (hname : field.fullName ∉ fieldNames fields) (equal : Bool) :
    (t.done field equal).meetsSome fields = t.meetsSome fields := by
  rw [Bool.eq_iff_iff, meetsSome, meetsSome, List.any_eq_true, List.any_eq_true]
  exact exists_congr fun e => and_congr_right fun he => by rw [meets_done hname equal e he]

theorem behind_done (equal : Bool) :
    (t.done field equal).behind fields = t.behind ((field, v) :: fields) := by
  rw [behind, behind, done, List.filter_filter]
  refine List.filter_congr fun k _ => ?_
  rw [Bool.eq_iff_iff, Bool.and_eq_true, bne_iff_ne, decide_eq_true_iff, decide_eq_true_iff]
  simp only [fieldNames, List.map_cons, List.mem_cons, not_or]
  exact and_comm

end Tally

theorem matchFields_cons : matchFields op t ((field, v) :: fields) =
    if t.meets field v then
      if op == .any then true else matchFields op (t.done field true) fields
    else if op == .equal || op == .notEqual then op == .notEqual
    else matchFields op (t.done field false) fields := by
  rw [matchFields]
  simp only [Tally.done, Bool.or_true, Bool.or_false, Bool.not_true, Bool.not_false]

/-- **The pass over fields of different names** answers by what they meet in the value as it was at
the start. -/
theorem matchFields_answer (hop : op ≠ .scalar) : ∀ {fields : List (Field × Value)} {t : Tally},
    (fieldNames fields).Nodup → (op = .any → t.someEqual = false) →
      matchFields op t fields = op.answer (t.meetsAll fields) (t.someEqual || t.meetsSome fields)
        ((t.behind fields).isEmpty && !t.someDifferent && t.meetsAll fields)
  | [], t, _, hnone => by
    have hbehind : t.behind [] = t.remaining := List.filter_eq_self.mpr fun _ _ => rfl
    have hall : t.meetsAll [] = true := rfl
    have hsome : t.meetsSome [] = false := rfl
    rw [hbehind, hall, hsome, Bool.and_true, Bool.or_false]
    cases op with
    | equal | notEqual => rfl
    | any => rw [MatchOp.answer, hnone rfl]; rfl
    | none => rfl
    | exact => exact beq_true _
    | notExact => exact beq_false _
    | scalar => exact absurd rfl hop
  | (field, v) :: fields, t, hnodup, hnone => by
    obtain ⟨hname, hdistinct⟩ := List.nodup_cons.mp hnodup
    have hrest : ∀ equal, (op = .any → (t.someEqual || equal) = false) →
        matchFields op (t.done field equal) fields = op.answer (t.meetsAll fields)
          (t.someEqual || equal || t.meetsSome fields)
          ((t.behind ((field, v) :: fields)).isEmpty && !(t.someDifferent || !equal) &&
            t.meetsAll fields) := by
      intro equal hnone
      rw [matchFields_answer hop hdistinct hnone, Tally.meetsAll_done hname,
        Tally.meetsSome_done hname, Tally.behind_done]
      rfl
    have hall : t.meetsAll ((field, v) :: fields) = (t.meets field v && t.meetsAll fields) := rfl
    have hsome : t.meetsSome ((field, v) :: fields) = (t.meets field v || t.meetsSome fields) := rfl
    rw [matchFields_cons, hall, hsome]
    cases hmeets : t.meets field v with
    | true =>
      by_cases hany : op = .any
      · subst hany
        simp [MatchOp.answer]
      · rw [if_pos rfl, if_neg (by simpa using hany), hrest true fun h => absurd h hany]
        simp
    | false =>
      rw [if_neg Bool.false_ne_true]
      by_cases hearly : op = .equal ∨ op = .notEqual
      · rcases hearly with rfl | rfl <;> rfl
      · rw [if_neg (by simpa using hearly), hrest false (by simpa using hnone)]
        obtain ⟨hequal, hnotEqual⟩ := not_or.mp hearly
        cases op <;> simp_all [MatchOp.answer]

end Pass

end Message

/-! ## Present fields -/

namespace Schema

variable {s : Schema} {f g : Field}

/-- The fields of a message have names of their own. -/
def NamesApart (s : Schema) : Prop := (s.fields.map Field.name).Nodup

/-- Full names tell such fields apart. -/
theorem eq_of_fullName (hs : s.pool.Built) (hnames : s.NamesApart) (hf : f ∈ s.fields)
    (hg : g ∈ s.fields) (h : f.fullName = g.fullName) : f = g := by
  rw [Message.fullName_eq hs f hf, Message.fullName_eq hs g hg] at h
  exact List.inj_on_of_nodup_map hnames hf hg (qualify_injective _ h)

end Schema

namespace Message

variable {m operand value : Message} {op : MatchOp} {f : Field} {v : Value}
  {fields : List (Field × Value)}

theorem mem_presentFields : (f, v) ∈ m.presentFields ↔
    ∃ n, (n, v) ∈ m.fields ∧ m.schema.fieldByNumber? n = some f := by
  rw [presentFields, List.mem_filterMap]
  constructor
  · rintro ⟨⟨n, w⟩, hmem, hfield⟩
    obtain ⟨g, hg, heq⟩ := Option.map_eq_some_iff.mp hfield
    cases heq
    exact ⟨n, hmem, hg⟩
  · rintro ⟨n, hmem, hfield⟩
    exact ⟨(n, v), hmem, by rw [hfield]; rfl⟩

/-- A present field with the full name of a declared one stands under the number of that. -/
theorem mem_fields_of_fullName (hs : m.schema.pool.Built) (hnames : m.schema.NamesApart)
    {g : Field} {n : Nat} (hg : (g, v) ∈ m.presentFields)
    (hf : m.schema.fieldByNumber? n = some f) (hname : g.fullName = f.fullName) :
    (n, v) ∈ m.fields := by
  obtain ⟨k, hk, hdeclared⟩ := mem_presentFields.mp hg
  have hgf : g = f :=
    eq_of_fullName hs hnames (mem_fields_of_number hdeclared) (mem_fields_of_number hf) hname
  have hkn : k = n := by
    rw [← fieldByNumber?_number hdeclared, hgf, fieldByNumber?_number hf]
  exact hkn ▸ hk

theorem Conforms.ascending (h : m.Conforms) : Ascending m.fields := by
  obtain ⟨s, fs⟩ := m
  exact h.1

theorem Conforms.field (h : m.Conforms) {n : Nat} (hmem : (n, v) ∈ m.fields) :
    ∃ f, m.schema.fieldByNumber? n = some f := by
  obtain ⟨s, fs⟩ := m
  obtain ⟨f, hf, -⟩ := fieldsConform_iff.mp h.2 _ hmem
  exact ⟨f, hf⟩

/-- The present fields have full names of their own. -/
theorem nodup_presentFields (hm : m.Conforms) (hs : m.schema.pool.Built)
    (hnames : m.schema.NamesApart) : (fieldNames m.presentFields).Nodup := by
  rw [fieldNames, List.Nodup, List.pairwise_map, presentFields, List.pairwise_filterMap]
  refine hm.ascending.imp fun {a b} hlt x hx y hy heq => ?_
  obtain ⟨f, hf, rfl⟩ := Option.map_eq_some_iff.mp hx
  obtain ⟨g, hg, rfl⟩ := Option.map_eq_some_iff.mp hy
  have hfg : f = g := eq_of_fullName hs hnames (mem_fields_of_number hf) (mem_fields_of_number hg) heq
  subst hfg
  exact absurd ((fieldByNumber?_number hf).symm.trans (fieldByNumber?_number hg)) (Nat.ne_of_lt hlt)

/-- Fields of different names are known by all of their names. -/
theorem byFullName_eq (h : (fieldNames fields).Nodup) :
    byFullName fields = fields.map fun e => (e.1.fullName, e.2) := by
  suffices hfold : ∀ (fields : List (Field × Value)) (known : List (String × Value)),
      (known.map Prod.fst ++ fieldNames fields).Nodup →
        fields.foldl (fun known entry => known.filter (fun k => k.1 != entry.1.fullName) ++
          [(entry.1.fullName, entry.2)]) known =
            known ++ fields.map fun e => (e.1.fullName, e.2) from hfold fields [] h
  intro fields
  induction fields with
  | nil => exact fun known _ => (List.append_nil known).symm
  | cons e fields ih =>
    intro known hnodup
    have hnew : ∀ k ∈ known, (k.1 != e.1.fullName) = true := by
      intro k hk
      rw [bne_iff_ne]
      rintro heq
      refine (List.nodup_append.mp hnodup).2.2 k.1 (List.mem_map_of_mem hk) e.1.fullName ?_ heq
      exact List.mem_cons_self
    rw [List.foldl_cons, List.filter_eq_self.mpr hnew, ih, List.append_assoc]
    · rfl
    · rw [List.map_append, List.append_assoc]
      exact hnodup

/-- Whether a field of an operand is present in a value and equal there. -/
def agrees (value : Message) (e : Field × Value) : Bool :=
  value.presentFields.any fun k => k.1.fullName == e.1.fullName && k.2.valueEq e.2

/-- What a pass over an operand starts from. -/
def tallyOf (value : Message) : Tally := ⟨byFullName value.presentFields, false, false⟩

theorem meets_tallyOf (h : (fieldNames value.presentFields).Nodup) (e : Field × Value) :
    (tallyOf value).meets e.1 e.2 = value.agrees e := by
  have hkeys : ((byFullName value.presentFields).map Prod.fst).Nodup := by
    rw [byFullName_eq h, List.map_map]
    exact h
  have hlookup : ∀ w, (byFullName value.presentFields).lookup e.1.fullName = some w ↔
      ∃ k ∈ value.presentFields, k.1.fullName = e.1.fullName ∧ k.2 = w := by
    intro w
    rw [lookup_eq_some_iff_mem hkeys, byFullName_eq h, List.mem_map]
    simp only [Prod.mk.injEq]
  rw [Bool.eq_iff_iff, agrees, List.any_eq_true, Tally.meets, tallyOf]
  simp only [Bool.and_eq_true, beq_iff_eq]
  cases hw : (byFullName value.presentFields).lookup e.1.fullName with
  | none =>
    refine ⟨fun h => (Bool.false_ne_true h).elim, ?_⟩
    rintro ⟨k, hk, hname, -⟩
    rw [(hlookup k.2).mpr ⟨k, hk, hname, rfl⟩] at hw
    cases hw
  | some w =>
    obtain ⟨k, hk, hname, rfl⟩ := (hlookup w).mp hw
    refine ⟨fun heq => ⟨k, hk, hname, heq⟩, ?_⟩
    rintro ⟨k', hk', hname', heq⟩
    have hsame := (hlookup k'.2).mpr ⟨k', hk', hname', rfl⟩
    rw [hw] at hsame
    rwa [Option.some.inj hsame]

/-- The fields of an operand that are present in a value and equal there. -/
def agreeing (operand value : Message) : List (Field × Value) :=
  operand.presentFields.filter value.agrees

/-- Whether all present fields of a value are present in an operand. -/
def covers (operand value : Message) : Bool :=
  value.presentFields.all fun k => k.1.fullName ∈ fieldNames operand.presentFields

/-- **Each mode** asks one of three questions about the fields of both messages. -/
theorem matchBy_eq_answer (hop : op ≠ .scalar) (ho : (fieldNames operand.presentFields).Nodup)
    (hv : (fieldNames value.presentFields).Nodup) :
    matchBy op operand value = .ok (op.answer (operand.presentFields.all value.agrees)
      (operand.presentFields.any value.agrees)
      (operand.covers value && operand.presentFields.all value.agrees)) := by
  have hmeets : ∀ e, (tallyOf value).meets e.1 e.2 = value.agrees e := meets_tallyOf hv
  have hall : (tallyOf value).meetsAll operand.presentFields =
      operand.presentFields.all value.agrees := List.all_congr rfl hmeets
  have hsome : (tallyOf value).meetsSome operand.presentFields =
      operand.presentFields.any value.agrees := List.any_congr rfl hmeets
  have hbehind : ((tallyOf value).behind operand.presentFields).isEmpty =
      operand.covers value := by
    rw [Tally.behind, tallyOf, byFullName_eq hv, covers, Bool.eq_iff_iff, List.isEmpty_iff,
      List.filter_eq_nil_iff, List.forall_mem_map, List.all_eq_true]
    simp only [decide_eq_true_iff, not_not]
  have hpass := matchFields_answer (t := tallyOf value) hop ho fun _ => rfl
  rw [matchBy, if_neg (by simpa using hop), ← hall, ← hsome, ← hbehind]
  refine congrArg Except.ok (hpass.trans ?_)
  simp only [tallyOf, Bool.false_or, Bool.not_false, Bool.and_true]

/-! ## Two messages of one schema -/

/-- **Matching exactly** is equality, between two messages of one schema. -/
theorem exact_iff_valueEq (ho : operand.Conforms) (hv : value.Conforms)
    (hschema : operand.schema = value.schema) (hs : value.schema.pool.Built)
    (hnames : value.schema.NamesApart) :
    (operand.covers value && operand.presentFields.all value.agrees) = true ↔
      operand.valueEq value = true := by
  obtain ⟨s, fs⟩ := operand
  obtain ⟨t, gs⟩ := value
  obtain rfl : s = t := hschema
  have hagrees : ∀ n v f, s.fieldByNumber? n = some f →
      (agrees ⟨s, gs⟩ (f, v) = true ↔ ∃ w, (n, w) ∈ gs ∧ w.valueEq v = true) := by
    intro n v f hf
    simp only [agrees, List.any_eq_true, Bool.and_eq_true, beq_iff_eq]
    constructor
    · rintro ⟨⟨g, w⟩, hk, hname, heq⟩
      exact ⟨w, mem_fields_of_fullName hs hnames hk hf hname, heq⟩
    · rintro ⟨w, hw, heq⟩
      exact ⟨(f, w), mem_presentFields.mpr ⟨n, hw, hf⟩, rfl, heq⟩
  have hnamed : ∀ n f, s.fieldByNumber? n = some f →
      (f.fullName ∈ fieldNames (presentFields ⟨s, fs⟩) ↔ ∃ v, (n, v) ∈ fs) := by
    intro n f hf
    rw [fieldNames, List.mem_map]
    constructor
    · rintro ⟨⟨g, v⟩, hk, hname⟩
      exact ⟨v, mem_fields_of_fullName (m := ⟨s, fs⟩) hs hnames hk hf hname⟩
    · rintro ⟨v, hv⟩
      exact ⟨(f, v), mem_presentFields.mpr ⟨n, hv, hf⟩, rfl⟩
  have hequal : valueEq ⟨s, fs⟩ ⟨s, gs⟩ = fieldsEq fs gs := by
    rw [valueEq, beq_self_eq_true, Bool.true_and]
  have hordered : Ascending fs ∧ Ascending gs := ⟨ho.ascending, hv.ascending⟩
  rw [hequal, fieldsEq_iff hordered.1 hordered.2, Bool.and_eq_true, and_comm, covers,
    List.all_eq_true, List.all_eq_true]
  refine and_congr ⟨fun h e he => ?_, fun h e he => ?_⟩ ⟨fun h k hk => ?_, fun h k hk => ?_⟩
  · obtain ⟨f, hf⟩ := ho.field he
    exact (hagrees e.1 e.2 f hf).mp (h (f, e.2) (mem_presentFields.mpr ⟨e.1, he, hf⟩))
  · obtain ⟨n, hn, hf⟩ := mem_presentFields.mp he
    exact (hagrees n e.2 e.1 hf).mpr (h (n, e.2) hn)
  · obtain ⟨f, hf⟩ := hv.field hk
    exact (hnamed k.1 f hf).mp
      (of_decide_eq_true (h (f, k.2) (mem_presentFields.mpr ⟨k.1, hk, hf⟩)))
  · obtain ⟨n, hn, hf⟩ := mem_presentFields.mp hk
    exact decide_eq_true ((hnamed n k.1 hf).mpr (h (n, k.2) hn))

/-! ## Decoded messages -/

section Decoded

variable {s t : Schema} {a b : Bytes}

theorem conforms_of_decode (h : decode s a = .ok m) : m.schema = s ∧ m.Conforms :=
  decodeWithin_conforms _ s a m h

/-- **The six modes** of matching an operand with a value.  The fields of the operand are compared
with the fields of the same full names in the value.  All of them have to be equal, or not; some of
them, or none; or all of them while the value has no others, or not.  The messages are decoded and
may have any schemas in which the fields of a message have names of their own.  If they have the same
schema, then matching exactly is equality and works both ways. -/
theorem matchBy_modes (hs : s.pool.Reachable) (ht : t.pool.Reachable) (hsnames : s.NamesApart)
    (htnames : t.NamesApart) (ho : decode s a = .ok operand) (hv : decode t b = .ok value) :
    ∃ equal any exact : Bool,
      matchBy .equal operand value = .ok equal ∧ matchBy .notEqual operand value = .ok (!equal) ∧
      matchBy .any operand value = .ok any ∧ matchBy .none operand value = .ok (!any) ∧
      matchBy .exact operand value = .ok exact ∧ matchBy .notExact operand value = .ok (!exact) ∧
      (equal = true ↔ agreeing operand value = operand.presentFields) ∧
      (any = true ↔ agreeing operand value ≠ []) ∧
      (exact = true ↔ equal = true ∧
        ∀ k ∈ value.presentFields, ∃ e ∈ operand.presentFields, e.1.fullName = k.1.fullName) ∧
      (s = t → (exact = true ↔ operand.valueEq value = true) ∧
        matchBy .exact value operand = matchBy .exact operand value) := by
  obtain ⟨rfl, hoperand⟩ := conforms_of_decode ho
  obtain ⟨rfl, hvalue⟩ := conforms_of_decode hv
  have hodistinct := nodup_presentFields hoperand hs.built hsnames
  have hvdistinct := nodup_presentFields hvalue ht.built htnames
  have hanswer : ∀ op, op ≠ .scalar → matchBy op operand value = _ := fun op hop =>
    matchBy_eq_answer hop hodistinct hvdistinct
  refine ⟨operand.presentFields.all value.agrees, operand.presentFields.any value.agrees,
    operand.covers value && operand.presentFields.all value.agrees,
    hanswer _ (by decide), hanswer _ (by decide), hanswer _ (by decide), hanswer _ (by decide),
    hanswer _ (by decide), hanswer _ (by decide), ?_, ?_, ?_, fun hschema => ?_⟩
  · rw [agreeing, List.filter_eq_self, List.all_eq_true]
  · rw [agreeing, Ne, List.filter_eq_nil_iff, List.any_eq_true]
    simp only [not_forall, not_not, exists_prop]
  · rw [Bool.and_eq_true, and_comm, covers]
    refine and_congr_right fun _ => ?_
    rw [List.all_eq_true]
    exact forall₂_congr fun k _ => by rw [decide_eq_true_iff, fieldNames, List.mem_map]
  · have hforth := exact_iff_valueEq hoperand hvalue hschema ht.built htnames
    have hback := exact_iff_valueEq hvalue hoperand hschema.symm hs.built hsnames
    refine ⟨hforth, ?_⟩
    rw [matchBy_eq_answer (by decide) hvdistinct hodistinct, hanswer _ (by decide)]
    refine congrArg Except.ok ?_
    rw [MatchOp.answer, MatchOp.answer, Bool.eq_iff_iff, hforth, hback, value.valueEq_comm operand]

end Decoded

/-- A unit with a message that has a number, readings, a level and a message of its own type. -/
def probeUnit : FileDescriptor where
  name? := some "probe.proto"
  package? := some "demo"
  dependencies := []
  messages := [⟨some "Probe",
    [⟨some "id", none, some 1, some 1, some 3, none, none, []⟩,
      ⟨some "readings", none, some 2, some 3, some 1, none, none, []⟩,
      ⟨some "inner", none, some 3, some 1, some 11, some ".demo.Probe", none, []⟩,
      ⟨some "level", none, some 4, some 1, some 2, none, none, []⟩], [], [], []⟩]
  enums := []
  carried := []

/-- The pool of the unit. -/
def probePool : SchemaPool where
  files := [probeUnit]
  messages := [⟨"demo.Probe", 0, [0],
    [⟨"id", "demo.Probe.id", 1, .int64, false, none⟩,
      ⟨"readings", "demo.Probe.readings", 2, .double, true, none⟩,
      ⟨"inner", "demo.Probe.inner", 3, .message 0, false, none⟩,
      ⟨"level", "demo.Probe.level", 4, .float, false, none⟩]⟩]
  enums := []
  types := [("demo.Probe", .message 0)]

/-- The message of the unit. -/
def probeSchema : Schema := ⟨probePool, 0, Nat.one_pos⟩

theorem probePool_reachable : probePool.Reachable :=
  .add .empty (show SchemaPool.empty.addFile probeUnit = .ok probePool by rfl)

theorem probeSchema_namesApart : probeSchema.NamesApart := by
  show ["id", "readings", "inner", "level"].Nodup
  decide

/-- A number, and inside a reading of zero. -/
def probeOperand : Message := ⟨probeSchema, [(1, .atom (.i64 5)),
  (3, .message ⟨probeSchema, [(2, .list [.atom (.f64 ⟨0⟩)])]⟩)]⟩

/-- The same number, inside a reading of negative zero, and a level. -/
def probeValue : Message := ⟨probeSchema, [(1, .atom (.i64 5)),
  (3, .message ⟨probeSchema, [(2, .list [.atom (.f64 ⟨0x8000000000000000⟩)])]⟩),
  (4, .atom (.f32 ⟨0x3F800000⟩))]⟩

/-- All fields of the operand are equal in the value, as zeros are; but the value has another one. -/
theorem matchBy_modes_probe : probePool.Reachable ∧ probeSchema.NamesApart ∧
    decode probeSchema [8, 5, 26, 10, 18, 8, 0, 0, 0, 0, 0, 0, 0, 0] = .ok probeOperand ∧
    decode probeSchema [8, 5, 26, 10, 18, 8, 0, 0, 0, 0, 0, 0, 0, 128, 37, 0, 0, 128, 63] =
      .ok probeValue ∧
    agreeing probeOperand probeValue = probeOperand.presentFields ∧
    agreeing probeOperand probeValue ≠ [] ∧
    matchBy .exact probeOperand probeValue = .ok false := by
  have hoperand : decode probeSchema [8, 5, 26, 10, 18, 8, 0, 0, 0, 0, 0, 0, 0, 0] =
      .ok probeOperand := rfl
  have hvalue : decode probeSchema
      [8, 5, 26, 10, 18, 8, 0, 0, 0, 0, 0, 0, 0, 128, 37, 0, 0, 128, 63] = .ok probeValue := rfl
  have hall : matchBy .equal probeOperand probeValue = .ok true := by decide +kernel
  have hsome : matchBy .any probeOperand probeValue = .ok true := by decide +kernel
  obtain ⟨equal, any, exact, hequal, -, hany, -, -, -, hagreeing, hnonempty, -, -⟩ :=
    matchBy_modes probePool_reachable probePool_reachable probeSchema_namesApart
      probeSchema_namesApart hoperand hvalue
  obtain rfl : true = equal := Except.ok.inj (hall.symm.trans hequal)
  obtain rfl : true = any := Except.ok.inj (hsome.symm.trans hany)
  exact ⟨probePool_reachable, probeSchema_namesApart, hoperand, hvalue, hagreeing.mp rfl,
    hnonempty.mp rfl, by decide +kernel⟩

end Message

end CellFilter
