import CellFilter.Message.Decode
import CellFilter.Proofs.Schema.Pool

/-!
# Merging messages

The fields of a message stand in the order of their numbers, so that they are known once it is known
what stands under every number.  Merging goes number by number.  Of three messages of one schema it
does not matter which two are merged first, since a field holds the same sort of value in all of
them; without that it would matter, as a value of another sort would hide what came before it.

* `Ascending.ext`: fields in order are determined by what stands under each number.
* `lookup_mergeFields`: merging, number by number.
* `Message.Conforms`: every field is declared and holds what it may hold.
* `Message.merge_assoc`: merging is associative.
-/

namespace CellFilter

variable {fs gs : List (Nat × Value)} {v w : Value} {n k : Nat}

/-! ## Fields in order -/

/-- The numbers of the fields grow. -/
def Ascending (fields : List (Nat × Value)) : Prop := fields.Pairwise fun a b => a.1 < b.1

theorem lookup_cons_of_ne (h : k ≠ n) : ((n, v) :: fs).lookup k = fs.lookup k := by
  rw [List.lookup_cons, beq_false_of_ne h]

theorem lookup_putField (fs : List (Nat × Value)) (n : Nat) (v : Value) (k : Nat) :
    (putField fs n v).lookup k = if k = n then some v else fs.lookup k := by
  induction fs with
  | nil =>
    by_cases hk : k = n
    · simp [putField, hk]
    · rw [putField, lookup_cons_of_ne hk, if_neg hk]
  | cons entry fs ih =>
    obtain ⟨m, w⟩ := entry
    rw [putField]
    by_cases hless : m < n
    · rw [if_pos hless]
      by_cases hm : k = m
      · subst hm
        rw [List.lookup_cons_self, List.lookup_cons_self, if_neg (Nat.ne_of_lt hless)]
      · rw [lookup_cons_of_ne hm, lookup_cons_of_ne hm, ih]
    · rw [if_neg hless]
      by_cases heq : m = n
      · subst heq
        rw [if_pos rfl]
        by_cases hk : k = m
        · rw [hk, List.lookup_cons_self, if_pos rfl]
        · rw [lookup_cons_of_ne hk, lookup_cons_of_ne hk, if_neg hk]
      · rw [if_neg heq]
        by_cases hk : k = n
        · rw [hk, List.lookup_cons_self, if_pos rfl]
        · rw [lookup_cons_of_ne hk, if_neg hk]

theorem mem_putField {e : Nat × Value} (h : e ∈ putField fs n v) : e = (n, v) ∨ e ∈ fs := by
  induction fs with
  | nil => exact Or.inl (List.mem_singleton.mp h)
  | cons entry fs ih =>
    unfold putField at h
    split_ifs at h with hless heq
    · rcases List.mem_cons.mp h with h | h
      · exact Or.inr (h ▸ List.mem_cons_self)
      · exact (ih h).imp_right (List.mem_cons_of_mem _)
    · exact (List.mem_cons.mp h).imp_right (List.mem_cons_of_mem _)
    · exact List.mem_cons.mp h

namespace Ascending

theorem putField (h : Ascending fs) (n : Nat) (v : Value) : Ascending (putField fs n v) := by
  induction fs with
  | nil => exact List.pairwise_singleton _ _
  | cons entry fs ih =>
    obtain ⟨m, w⟩ := entry
    obtain ⟨hfirst, hrest⟩ := List.pairwise_cons.mp h
    unfold CellFilter.putField
    split_ifs with hless heq
    · refine List.pairwise_cons.mpr ⟨fun e he => ?_, ih hrest⟩
      rcases mem_putField he with rfl | he
      · exact hless
      · exact hfirst e he
    · subst heq
      exact List.pairwise_cons.mpr ⟨hfirst, hrest⟩
    · have hn : n < m := by omega
      refine List.pairwise_cons.mpr ⟨fun e he => ?_, h⟩
      rcases List.mem_cons.mp he with rfl | he
      · exact hn
      · exact Nat.lt_trans hn (hfirst e he)

theorem lookup_eq_none (h : Ascending ((n, v) :: fs)) (hk : k ≤ n) : fs.lookup k = none := by
  rw [List.lookup_eq_none_iff]
  intro e he
  have hlt : n < e.1 := (List.pairwise_cons.mp h).1 e he
  simp
  omega

/-- Fields in order are determined by what stands under each number. -/
theorem ext (hf : Ascending fs) (hg : Ascending gs) (h : ∀ k, fs.lookup k = gs.lookup k) :
    fs = gs := by
  induction fs generalizing gs with
  | nil =>
    cases gs with
    | nil => rfl
    | cons entry gs =>
      have hfirst := h entry.1
      rw [List.lookup_nil, List.lookup_cons_self] at hfirst
      cases hfirst
  | cons entry fs ih =>
    obtain ⟨n, v⟩ := entry
    cases gs with
    | nil =>
      have hfirst := h n
      rw [List.lookup_nil, List.lookup_cons_self] at hfirst
      cases hfirst
    | cons entry gs =>
      obtain ⟨m, w⟩ := entry
      -- a smaller first number would be missing on the other side
      have hnm : n = m := by
        rcases Nat.lt_trichotomy n m with hlt | heq | hlt
        · have hn := h n
          rw [List.lookup_cons_self, lookup_cons_of_ne (Nat.ne_of_lt hlt),
            hg.lookup_eq_none (Nat.le_of_lt hlt)] at hn
          cases hn
        · exact heq
        · have hm := h m
          rw [List.lookup_cons_self, lookup_cons_of_ne (Nat.ne_of_lt hlt),
            hf.lookup_eq_none (Nat.le_of_lt hlt)] at hm
          cases hm
      subst hnm
      have hvw : v = w := by
        have hfirst := h n
        rw [List.lookup_cons_self, List.lookup_cons_self] at hfirst
        exact Option.some.inj hfirst
      subst hvw
      refine congrArg _ (ih (List.pairwise_cons.mp hf).2 (List.pairwise_cons.mp hg).2 fun k => ?_)
      by_cases hk : k = n
      · subst hk
        rw [hf.lookup_eq_none (Nat.le_refl k), hg.lookup_eq_none (Nat.le_refl k)]
      · have hrest := h k
        rwa [lookup_cons_of_ne hk, lookup_cons_of_ne hk] at hrest

theorem mergeFields (h : Ascending fs) (gs : List (Nat × Value)) :
    Ascending (mergeFields fs gs) := by
  induction gs generalizing fs with
  | nil => simpa only [CellFilter.mergeFields] using h
  | cons entry gs ih =>
    simp only [CellFilter.mergeFields]
    exact ih (h.putField _ _)

end Ascending

/-! ## Number by number -/

/-- What stands under a number once what a later message has there is merged in. -/
def mergeAt (earlier : Option Value) : Option Value → Option Value
  | none => earlier
  | some later => some (Value.merge earlier later)

theorem Value.merge_none (v : Value) : Value.merge none v = v := by
  cases v <;> simp only [Value.merge]

@[simp] theorem mergeAt_none_left (later : Option Value) : mergeAt none later = later := by
  cases later with
  | none => rfl
  | some v => exact congrArg some v.merge_none

/-- Merging, number by number. -/
theorem lookup_mergeFields (fs : List (Nat × Value)) (hg : Ascending gs) (k : Nat) :
    (mergeFields fs gs).lookup k = mergeAt (fs.lookup k) (gs.lookup k) := by
  induction gs generalizing fs with
  | nil => simp only [mergeFields, List.lookup_nil, mergeAt]
  | cons entry gs ih =>
    obtain ⟨n, v⟩ := entry
    simp only [mergeFields]
    rw [ih _ (List.pairwise_cons.mp hg).2, lookup_putField]
    by_cases hk : k = n
    · subst hk
      rw [if_pos rfl, hg.lookup_eq_none (Nat.le_refl k), List.lookup_cons_self]
      rfl
    · rw [if_neg hk, lookup_cons_of_ne hk]

/-! ## Messages of a schema -/

/-- The values of a kind that is not a message. -/
def FieldKind.Holds : FieldKind → Atom → Prop
  | .double, .f64 _ => True
  | .float, .f32 _ => True
  | .int32, .i32 _ | .sint32, .i32 _ | .sfixed32, .i32 _ => True
  | .int64, .i64 _ | .sint64, .i64 _ | .sfixed64, .i64 _ => True
  | .uint32, .u32 _ | .fixed32, .u32 _ => True
  | .uint64, .u64 _ | .fixed64, .u64 _ => True
  | .bool, .bool _ => True
  | .string, .string _ => True
  | .bytes, .bytes _ => True
  | .enum _, .enumNumber _ => True
  | _, _ => False

/-- A field of a message type holds no other values. -/
theorem FieldKind.not_holds {s t : Schema} {f : Field} (h : s.messageSchema? f = some t) (a : Atom) :
    ¬ f.kind.Holds a := by
  unfold Schema.messageSchema? at h
  cases hkind : f.kind <;> rw [hkind] at h <;> first | cases h | exact id

mutual

/-- What a field may hold: a list if it is repeated, else a value of its kind. -/
def Value.Conforms (s : Schema) (f : Field) (repeated : Bool) : Value → Prop
  | .atom a => repeated = false ∧ f.kind.Holds a
  | .message m => repeated = false ∧ s.messageSchema? f = some m.schema ∧ m.Conforms
  | .list values => repeated = true ∧ ListConforms s f values

/-- A message whose fields are in order, declared, and hold what they may hold. -/
def Message.Conforms : Message → Prop
  | ⟨s, fields⟩ => Ascending fields ∧ FieldsConform s fields

/-- Values of a repeated field. -/
def ListConforms (s : Schema) (f : Field) : List Value → Prop
  | [] => True
  | v :: rest => v.Conforms s f false ∧ ListConforms s f rest

/-- Declared fields with what they may hold. -/
def FieldsConform (s : Schema) : List (Nat × Value) → Prop
  | [] => True
  | (n, v) :: rest =>
    (∃ f, s.fieldByNumber? n = some f ∧ v.Conforms s f f.repeated) ∧ FieldsConform s rest

end

variable {s : Schema} {f : Field} {repeated : Bool}

theorem fieldsConform_iff : FieldsConform s fs ↔ ∀ e ∈ fs,
    ∃ f, s.fieldByNumber? e.1 = some f ∧ e.2.Conforms s f f.repeated := by
  induction fs with
  | nil => simp [FieldsConform]
  | cons entry fs ih => simp only [FieldsConform, ih, List.forall_mem_cons]

theorem ListConforms.append {vs ws : List Value} (hv : ListConforms s f vs)
    (hw : ListConforms s f ws) : ListConforms s f (vs ++ ws) := by
  induction vs with
  | nil => exact hw
  | cons v vs ih =>
    simp only [ListConforms, List.cons_append] at hv ⊢
    exact ⟨hv.1, ih hv.2⟩

namespace FieldsConform

/-- What stands under the number of a field. -/
theorem lookup (h : FieldsConform s fs) (hf : s.fieldByNumber? n = some f) :
    ∀ v ∈ fs.lookup n, v.Conforms s f f.repeated := by
  intro v hv
  obtain ⟨g, hg, hconforms⟩ := fieldsConform_iff.mp h _ (mem_of_lookup hv)
  cases hg.symm.trans hf
  exact hconforms

theorem putField (h : FieldsConform s fs) (hf : s.fieldByNumber? n = some f)
    (hv : v.Conforms s f f.repeated) : FieldsConform s (putField fs n v) := by
  rw [fieldsConform_iff] at h ⊢
  intro e he
  rcases mem_putField he with rfl | he
  · exact ⟨f, hf, hv⟩
  · exact h e he

end FieldsConform

mutual

/-- Merging keeps to what a field may hold. -/
theorem Value.Conforms.merge : ∀ {v : Value} {s : Schema} {f : Field} {repeated : Bool}
    {e : Option Value}, (∀ w ∈ e, w.Conforms s f repeated) → v.Conforms s f repeated →
      (Value.merge e v).Conforms s f repeated
  | .atom a, s, f, repeated, e, _, h => by
    simp only [Value.merge]
    exact h
  | .message m, s, f, repeated, e, he, h => by
    simp only [Value.merge]
    split
    · rename_i earlier
      have hearlier := he (.message earlier) rfl
      simp only [Value.Conforms] at h hearlier ⊢
      obtain ⟨hone, hschema, hm⟩ := h
      obtain ⟨-, hschema', hearlier⟩ := hearlier
      have hsame : earlier.schema = m.schema := Option.some.inj (hschema'.symm.trans hschema)
      have hmerged : (Message.merge earlier m).schema = earlier.schema := by
        cases m
        simp only [Message.merge, Message.schema]
      exact ⟨hone, by rw [hmerged]; exact hschema', Message.Conforms.merge hearlier hm hsame⟩
    · exact h
  | .list vs, s, f, repeated, e, he, h => by
    simp only [Value.merge]
    split
    · rename_i values
      have hvalues := he (.list values) rfl
      simp only [Value.Conforms] at h hvalues ⊢
      exact ⟨h.1, hvalues.2.append h.2⟩
    · exact h

theorem Message.Conforms.merge : ∀ {m e : Message}, e.Conforms → m.Conforms →
    e.schema = m.schema → (Message.merge e m).Conforms
  | ⟨s, gs⟩, ⟨t, fs⟩, he, hm, hst => by
    simp only [Message.schema] at hst
    subst hst
    simp only [Message.Conforms] at he hm
    simp only [Message.merge, Message.schema, Message.fields, Message.Conforms]
    exact ⟨he.1.mergeFields gs, FieldsConform.merge he.2 hm.2⟩

theorem FieldsConform.merge : ∀ {gs fs : List (Nat × Value)} {s : Schema}, FieldsConform s fs →
    FieldsConform s gs → FieldsConform s (mergeFields fs gs)
  | [], fs, s, hf, _ => by
    simp only [mergeFields]
    exact hf
  | (n, v) :: gs, fs, s, hf, hg => by
    simp only [FieldsConform] at hg
    obtain ⟨⟨f, hfield, hv⟩, hrest⟩ := hg
    simp only [mergeFields]
    have hmerged := Value.Conforms.merge (hf.lookup hfield) hv
    exact FieldsConform.merge (hf.putField hfield hmerged) hrest

end

/-! ## Which two are merged first -/

mutual

theorem Value.merge_assoc : ∀ {z y : Value} {s : Schema} {f : Field} {repeated : Bool}
    {e : Option Value}, (∀ x ∈ e, x.Conforms s f repeated) → y.Conforms s f repeated →
      z.Conforms s f repeated →
        Value.merge (some (Value.merge e y)) z = Value.merge e (Value.merge (some y) z)
  | .atom a, y, s, f, repeated, e, _, _, _ => by simp only [Value.merge]
  | .list zs, y, s, f, repeated, e, he, hy, hz => by
    simp only [Value.Conforms] at hz
    obtain ⟨hmany, -⟩ := hz
    cases y with
    | atom a => simp only [Value.Conforms, hmany, reduceCtorEq, false_and] at hy
    | message m => simp only [Value.Conforms, hmany, reduceCtorEq, false_and] at hy
    | list ys =>
      cases e with
      | none => simp only [Value.merge]
      | some x =>
        cases x with
        | atom a => simp only [Value.merge]
        | message m => simp only [Value.merge]
        | list xs => simp only [Value.merge, List.append_assoc]
  | .message c, y, s, f, repeated, e, he, hy, hz => by
    simp only [Value.Conforms] at hz
    obtain ⟨hone, hc, hcc⟩ := hz
    cases y with
    | atom a =>
      simp only [Value.Conforms] at hy
      exact absurd hy.2 (FieldKind.not_holds hc a)
    | list ys => simp only [Value.Conforms, hone, reduceCtorEq, false_and] at hy
    | message b =>
      simp only [Value.Conforms] at hy
      obtain ⟨-, hb, hbc⟩ := hy
      have hbs : b.schema = c.schema := Option.some.inj (hb.symm.trans hc)
      cases e with
      | none => simp only [Value.merge]
      | some x =>
        cases x with
        | atom a => simp only [Value.merge]
        | list xs => simp only [Value.merge]
        | message a =>
          have ha := he (.message a) rfl
          simp only [Value.Conforms] at ha
          have has : a.schema = b.schema := Option.some.inj (ha.2.1.symm.trans hb)
          simp only [Value.merge]
          rw [Message.merge_assoc ha.2.2 hbc hcc has hbs]

/-- **Merging is associative** on messages of one schema. -/
theorem Message.merge_assoc : ∀ {c b a : Message}, a.Conforms → b.Conforms → c.Conforms →
    a.schema = b.schema → b.schema = c.schema →
      Message.merge (Message.merge a b) c = Message.merge a (Message.merge b c)
  | ⟨s, cs⟩, ⟨t, bs⟩, ⟨u, as⟩, ha, hb, hc, hab, hbc => by
    simp only [Message.schema] at hab hbc
    subst hab hbc
    simp only [Message.Conforms] at ha hb hc
    simp only [Message.merge, Message.schema, Message.fields, Message.mk.injEq, true_and]
    have hbc := hb.1.mergeFields cs
    refine ((ha.1.mergeFields bs).mergeFields cs).ext (ha.1.mergeFields _) fun k => ?_
    rw [lookup_mergeFields _ hc.1, lookup_mergeFields _ hb.1, lookup_mergeFields _ hbc,
      lookup_mergeFields _ hc.1]
    cases hz : cs.lookup k with
    | none => rfl
    | some z =>
      cases hy : bs.lookup k with
      | none => rw [mergeAt_none_left]; rfl
      | some y =>
        have hmem := mem_of_lookup hz
        obtain ⟨f, hfield, -⟩ := fieldsConform_iff.mp hc.2 _ hmem
        exact congrArg some (FieldsConform.merge_assoc hc.2 _ hmem hfield
          (ha.2.lookup hfield) (hb.2.lookup hfield y hy))

/-- The values of a message are merged with two others in either order. -/
theorem FieldsConform.merge_assoc : ∀ {cs : List (Nat × Value)} {s : Schema}, FieldsConform s cs →
    ∀ entry ∈ cs, ∀ {f : Field} {e : Option Value} {y : Value},
      s.fieldByNumber? entry.1 = some f → (∀ x ∈ e, x.Conforms s f f.repeated) →
        y.Conforms s f f.repeated →
          Value.merge (some (Value.merge e y)) entry.2 =
            Value.merge e (Value.merge (some y) entry.2)
  | [], _, _, entry, hmem, _, _, _, _, _, _ => absurd hmem List.not_mem_nil
  | (n, z) :: cs, s, h, entry, hmem, f, e, y, hf, he, hy => by
    simp only [FieldsConform] at h
    obtain ⟨⟨g, hg, hz⟩, hrest⟩ := h
    rcases List.mem_cons.mp hmem with rfl | hmem
    · cases hg.symm.trans hf
      exact Value.merge_assoc he hy hz
    · exact FieldsConform.merge_assoc hrest entry hmem hf he hy

end

end CellFilter
