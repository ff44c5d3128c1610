import CellFilter.Proofs.Message.Conformance

/-!
# Concatenated messages

The bytes of two messages, one after the other, are read as the first message and then as the
second, and what the second adds to the draft of the first is what merging adds to the finished
message.

* `Draft.merge_add`, `Draft.merge_finish`: merging before a message is finished.
* `decode_append`: **concatenation is merging**.
-/

namespace CellFilter

open Outcome

namespace Message

variable {schema : Schema} {field : Field} {nested : ReadNested}

/-! ## Drafts of two messages -/

namespace Draft

variable {d e : Draft} {number : Nat} {value : Value}

/-- The draft of two messages one after the other. -/
def merge (d e : Draft) : Draft := ⟨mergeFields d.singles e.singles, mergeFields d.lists e.lists⟩

@[simp] theorem merge_empty (d : Draft) : d.merge empty = d := by
  simp only [merge, empty, mergeFields]

/-- A value is merged in before or after the fields of another message. -/
theorem putField_mergeFields {repeated : Bool} {ds es : List (Nat × Value)}
    (hd : FieldsOf schema repeated ds) (he : FieldsOf schema repeated es)
    (hf : schema.fieldByNumber? number = some field)
    (hv : value.Conforms schema field field.repeated) :
    putField (mergeFields ds es) number (Value.merge ((mergeFields ds es).lookup number) value) =
      mergeFields ds (putField es number (Value.merge (es.lookup number) value)) := by
  have hput := he.ascending.putField number (Value.merge (es.lookup number) value)
  refine ((hd.ascending.mergeFields es).putField _ _).ext (hd.ascending.mergeFields _) fun k => ?_
  rw [lookup_putField, lookup_mergeFields _ hput, lookup_mergeFields _ he.ascending,
    lookup_putField, lookup_mergeFields _ he.ascending]
  by_cases hk : k = number
  · subst hk
    rw [if_pos rfl, if_pos rfl]
    cases hy : es.lookup k with
    | none => rw [Value.merge_none]; rfl
    | some y =>
      have hassoc := Value.merge_assoc (hd.conform.lookup hf) (he.conform.lookup hf y hy) hv
      exact congrArg some hassoc
  · rw [if_neg hk, if_neg hk]

theorem merge_add (hd : d.Conforms schema) (he : e.Conforms schema) {entry : Entry}
    (h : entry.Conforms schema) : (d.merge e).add entry = d.merge (e.add entry) := by
  cases entry with
  | nothing => rfl
  | single n v =>
    obtain ⟨f, hf, hone, hv⟩ := h
    simp only [Draft.add, addSingle, merge,
      putField_mergeFields hd.singles he.singles hf (hone ▸ hv)]
  | more n vs =>
    obtain ⟨f, hf, hmany, hvs⟩ := h
    have hv : (Value.list vs).Conforms schema f f.repeated := ⟨hmany, hvs⟩
    simp only [Draft.add, addAll, merge, putField_mergeFields hd.lists he.lists hf hv]

theorem merge_conforms (hd : d.Conforms schema) (he : e.Conforms schema) :
    (d.merge e).Conforms schema where
  singles := hd.singles.merge he.singles
  lists := hd.lists.merge he.lists

/-- **Merging before finishing** is merging the finished messages. -/
theorem merge_finish (hd : d.Conforms schema) (he : e.Conforms schema) :
    (d.merge e).finish schema = Message.merge (d.finish schema) (e.finish schema) := by
  have hfields : (d.merge e).finished = mergeFields d.finished e.finished := by
    have hde := merge_conforms hd he
    refine (finished_conforms hde).1.ext ((finished_conforms hd).1.mergeFields _) fun k => ?_
    rw [lookup_finished hde, lookup_mergeFields _ (finished_conforms he).1, lookup_finished hd,
      lookup_finished he]
    simp only [merge]
    rw [lookup_mergeFields _ he.lists.ascending, lookup_mergeFields _ he.singles.ascending]
    -- a number that has a list anywhere has a single value nowhere
    cases hlater : e.lists.lookup k with
    | some later =>
      rw [he.lists.apart hd.singles hlater, he.lists.apart he.singles hlater]
      cases d.lists.lookup k <;> rfl
    | none =>
      cases hearlier : d.lists.lookup k with
      | some earlier =>
        rw [hd.lists.apart hd.singles hearlier, hd.lists.apart he.singles hearlier]
        rfl
      | none => rfl
  have hd' : d.finish schema = ⟨schema, d.finished⟩ := rfl
  have he' : e.finish schema = ⟨schema, e.finished⟩ := rfl
  have hde' : (d.merge e).finish schema = ⟨schema, (d.merge e).finished⟩ := rfl
  rw [hd', he', hde', hfields]
  simp only [Message.merge, Message.schema, Message.fields]

end Draft

/-! ## Whole messages -/

/-- A step adds the same behind another message. -/
theorem step_merge (hn : NestedConforms nested) {d e : Draft} (hd : d.Conforms schema)
    (he : e.Conforms schema) (bytes : Bytes) : step nested schema (d.merge e) bytes =
      (step nested schema e bytes).map fun r => (d.merge r.1, r.2) := by
  rw [step_eq, step_eq]
  cases hread : readEntry nested schema bytes with
  | error fault => rfl
  | ok r =>
    simp only [map_ok]
    rw [Draft.merge_add hd he (readEntry_conforms hn hread)]

theorem decodeWithin_append {a b : Bytes} {m : Message} : ∀ {levels : Nat},
    decodeWithin levels schema a = .ok m →
      decodeWithin levels schema (a ++ b) = (decodeWithin levels schema b).map (Message.merge m)
  | 0, h => by cases h
  | levels + 1, h => by
    obtain ⟨d, hd, h⟩ := bind_eq_ok.mp h
    cases h
    have hn := decodeWithin_conforms levels
    have hkeeps : ∀ e input r, Draft.Conforms schema e →
        step (decodeWithin levels) schema e input = .ok r → r.1.Conforms schema :=
      fun _ _ _ he hr => step_conforms hn he hr
    have hconforms : d.Conforms schema := consumeAll_keeps hkeeps Draft.conforms_empty hd
    -- the second piece is read behind the first as it is read alone
    have hboth : consumeAll (step (decodeWithin levels) schema) .empty (a ++ b) =
        (consumeAll (step (decodeWithin levels) schema) .empty b).map d.merge := by
      rw [step_advances.consumeAll_append hd, ← consumeAll_map hkeeps
        (fun e input he => step_merge hn hconforms he input) Draft.conforms_empty,
        Draft.merge_empty]
    rw [decodeWithin, decodeWithin, hboth]
    cases hb : consumeAll (step (decodeWithin levels) schema) .empty b with
    | error fault => rfl
    | ok e =>
      have he : e.Conforms schema := consumeAll_keeps hkeeps Draft.conforms_empty hb
      exact congrArg Except.ok (Draft.merge_finish hconforms he)

/-- **Concatenation is merging.**  Behind bytes that are read as a message, further bytes are read
or refused as they are alone, and what they hold is merged in. -/
theorem decode_append {a b : Bytes} {m : Message} (h : decode schema a = .ok m) :
    decode schema (a ++ b) = (decode schema b).map (Message.merge m) :=
  decodeWithin_append h

/-! ### A nested message that comes in two pieces -/

/-- A unit with a message that has a number, a list of numbers and a message of its own type. -/
def nodeUnit : FileDescriptor where
  name? := some "node.proto"
  package? := some "demo"
  dependencies := []
  messages := [⟨some "Node",
    [⟨some "weight", none, some 1, some 1, some 3, none, none, []⟩,
      ⟨some "samples", none, some 3, some 3, some 3, none, none, []⟩,
      ⟨some "inner", none, some 4, some 1, some 11, some ".demo.Node", none, []⟩], [], [], []⟩]
  enums := []
  carried := []

/-- The pool of the unit. -/
def nodePool : SchemaPool where
  files := [nodeUnit]
  messages := [⟨"demo.Node", 0, [0],
    [⟨"weight", "demo.Node.weight", 1, .int64, false, none⟩,
      ⟨"samples", "demo.Node.samples", 3, .int64, true, none⟩,
      ⟨"inner", "demo.Node.inner", 4, .message 0, false, none⟩]⟩]
  enums := []
  types := [("demo.Node", .message 0)]

/-- The message of the unit. -/
def nodeSchema : Schema := ⟨nodePool, 0, Nat.one_pos⟩

/-- The first piece has a weight and a run of one sample, the second a sample on its own. -/
theorem decode_append_pieces : nodePool.Reachable ∧
    decode nodeSchema [34, 5, 8, 5, 26, 1, 1] = .ok ⟨nodeSchema,
      [(4, .message ⟨nodeSchema, [(1, .atom (.i64 5)), (3, .list [.atom (.i64 1)])]⟩)]⟩ ∧
    decode nodeSchema ([34, 5, 8, 5, 26, 1, 1] ++ [34, 2, 24, 2]) = .ok ⟨nodeSchema,
      [(4, .message ⟨nodeSchema,
        [(1, .atom (.i64 5)), (3, .list [.atom (.i64 1), .atom (.i64 2)])]⟩)]⟩ := by
  have hpool : SchemaPool.empty.addFile nodeUnit = .ok nodePool := by rfl
  have hfirst : decode nodeSchema [34, 5, 8, 5, 26, 1, 1] = .ok ⟨nodeSchema,
      [(4, .message ⟨nodeSchema, [(1, .atom (.i64 5)), (3, .list [.atom (.i64 1)])]⟩)]⟩ := rfl
  have hsecond : decode nodeSchema [34, 2, 24, 2] = .ok ⟨nodeSchema,
      [(4, .message ⟨nodeSchema, [(3, .list [.atom (.i64 2)])]⟩)]⟩ := rfl
  refine ⟨.add .empty hpool, hfirst, ?_⟩
  rw [decode_append hfirst, hsecond]
  rfl

end Message

end CellFilter
