import CellFilter.Payload.Standalone
import CellFilter.Proofs.Schema.Transfer

/-!
# Schemas that say the same

Two schemas are isomorphic if their fields say the same, one by one, and so do the fields of the
messages that they lead to.  Messages may refer to themselves, so that this is a relation that goes
along with every step and not a walk that ends.

* `Schema.Isomorphic`: the relation, as the largest one that fields keep.
* `isomorphic_of_within`: a message of a pool and the message of that name in a smaller pool.
* `isomorphic_of_selfContained`: a message that refers to no other type and any with its fields.
-/

namespace CellFilter

open Outcome Relation

namespace Schema

/-- Kinds of fields of two schemas that are the same, or lead to related messages of one name, or to
enumerations of the same name and values. -/
inductive KindsAgree (r : Schema → Schema → Prop) (s t : Schema) : FieldKind → FieldKind → Prop
  | plain {kind : FieldKind} : kind.isReference = false → KindsAgree r s t kind kind
  | message {i j : Nat} {s' t' : Schema} : ofIndex? s.pool i = some s' → ofIndex? t.pool j = some t' →
      s'.fullName = t'.fullName → r s' t' → KindsAgree r s t (.message i) (.message j)
  | enum {i j : Nat} {e : EnumType} : s.pool.enums[i]? = some e → t.pool.enums[j]? = some e →
      KindsAgree r s t (.enum i) (.enum j)

/-- Fields of two schemas that say the same, given which messages do. -/
structure FieldsAgree (r : Schema → Schema → Prop) (s t : Schema) (f g : Field) : Prop where
  name : f.name = g.name
  number : f.number = g.number
  kind : KindsAgree r s t f.kind g.kind
  repeated : f.repeated = g.repeated
  default? : f.default? = g.default?

/-- The same fields in the same order, here and in every message that fields lead to. -/
def Isomorphic (s t : Schema) : Prop :=
  ∃ r : Schema → Schema → Prop, r s t ∧
    ∀ a b, r a b → List.Forall₂ (FieldsAgree r a b) a.fields b.fields

section Mono

variable {r q : Schema → Schema → Prop} {s t : Schema}

theorem KindsAgree.mono (hrq : ∀ a b, r a b → q a b) {k l : FieldKind}
    (h : KindsAgree r s t k l) : KindsAgree q s t k l := by
  cases h with
  | plain hp => exact .plain hp
  | message hs ht hname hr => exact .message hs ht hname (hrq _ _ hr)
  | enum hi hj => exact .enum hi hj

/-- A kind that refers to nothing agrees with itself only. -/
theorem KindsAgree.of_plain {k l : FieldKind} (h : KindsAgree r s t k l)
    (hk : k.isReference = false) : KindsAgree q s t k l := by
  cases h with
  | plain hp => exact .plain hp
  | message => cases hk
  | enum => cases hk

theorem FieldsAgree.mono (hrq : ∀ a b, r a b → q a b) {f g : Field}
    (h : FieldsAgree r s t f g) : FieldsAgree q s t f g :=
  ⟨h.name, h.number, h.kind.mono hrq, h.repeated, h.default?⟩

/-- The fields of isomorphic schemas agree. -/
theorem Isomorphic.fields (h : Isomorphic s t) :
    List.Forall₂ (FieldsAgree Isomorphic s t) s.fields t.fields := by
  obtain ⟨r, hr, hstep⟩ := h
  exact (hstep s t hr).imp fun _ _ => FieldsAgree.mono fun a b hab => ⟨r, hab, hstep⟩

end Mono

end Schema

namespace SchemaPool

variable {P Q : SchemaPool} {unit v : FileDescriptor}

theorem Within.reaches (h : Within Q P) (hP : P.Built) (hu : unit ∈ Q.files)
    (hr : ReflTransGen P.Imports unit v) : ReflTransGen Q.Imports unit v := by
  induction hr with
  | refl => exact .refl
  | tail hr hstep ih =>
    exact ih.tail ⟨h.mem_of_reaches hP hr hu, h.mem_of_reaches hP (hr.tail hstep) hu, hstep.2.2⟩

theorem Built.enums_of_take (h : P.Built) {k i : Nat} {e : EnumType}
    (he : (scopeOf (P.files.take k)).enums[i]? = some e) : P.enums[i]? = some e := by
  rw [h.enums, Declaration.ofFiles_take _ k, Declaration.enumTypes_append]
  exact List.getElem?_append_left (List.getElem?_eq_some_iff.mp he).1 ▸ he

/-- The message of a name in a pool. -/
theorem Built.ofIndex?_of_type? (h : P.Built) {name : String} {i : Nat}
    (hi : P.type? name = some (.message i)) :
    ∃ s, Schema.ofIndex? P i = some s ∧ s.pool = P ∧ s.fullName = name := by
  obtain ⟨m, hm, hname⟩ := Option.map_eq_some_iff.mp (h.type?_message.mp hi)
  obtain ⟨hlt, hget⟩ := List.getElem?_eq_some_iff.mp hm
  refine ⟨⟨P, i, hlt⟩, dif_pos hlt, rfl, ?_⟩
  rw [← hname, ← hget]
  rfl

end SchemaPool

namespace Schema

open SchemaPool

variable {s t : Schema}

/-- Schemas of two pools that have the same name. -/
def SameName (P Q : SchemaPool) (s t : Schema) : Prop :=
  s.pool = P ∧ t.pool = Q ∧ s.fullName = t.fullName

/-- Fields that say the same in the scopes that they were resolved in agree. -/
theorem FieldsAgree.of_sameField (hs : s.pool.Built) (ht : t.pool.Built) {k l : Nat} {f g : Field}
    (h : SameField (scopeOf (s.pool.files.take k)) (scopeOf (t.pool.files.take l)) f g) :
    FieldsAgree (SameName s.pool t.pool) s t f g := by
  refine ⟨h.name, h.number, ?_, h.repeated, h.default?⟩
  have hkind := h.kind
  generalize f.kind = kind, g.kind = kind' at hkind
  cases hkind with
  | plain hp => exact .plain hp
  | message hi hj =>
    obtain ⟨a, ha, hpool, hname⟩ := hs.ofIndex?_of_type? (hs.type?_of_take hi)
    obtain ⟨b, hb, hpool', hname'⟩ := ht.ofIndex?_of_type? (ht.type?_of_take hj)
    have hsame : a.fullName = b.fullName := hname.trans hname'.symm
    exact .message ha hb hsame ⟨hpool, hpool', hsame⟩
  | enum hi hj => exact .enum (hs.enums_of_take hi) (ht.enums_of_take hj)

/-- Fields that were resolved from the same declared fields. -/
theorem fieldsAgree_of_shared (hs : s.pool.Built) (ht : t.pool.Built)
    (hd : s.declaration.fields = t.declaration.fields)
    (hshared : ∀ field ∈ s.declaration.fields, Shared (s.pool.files.take (s.type.file + 1))
      (t.pool.files.take (t.type.file + 1)) field) :
    List.Forall₂ (FieldsAgree (SameName s.pool t.pool) s t) s.fields t.fields := by
  obtain ⟨-, -, hfields⟩ := exists_declared hs
  obtain ⟨-, -, hfields'⟩ := exists_declared ht
  rw [← hd] at hfields'
  have hleft := mapM_eq_ok_iff.mp hfields
  have hright := mapM_eq_ok_iff.mp hfields'
  refine forall₂_of_common hleft hright fun field hfield f g hf hg => ?_
  obtain ⟨g', hg', hsame⟩ : ∃ g', (scopeOf (t.pool.files.take (t.type.file + 1))).resolveField
      t.fullName field = .ok g' ∧ SameField _ _ f g' :=
    resolveField_transfer (hs.clear_take _) (ht.clear_take _) (hshared field hfield) hf
  obtain rfl : g = g' := Except.ok.inj (hg.symm.trans hg')
  exact .of_sameField hs ht hsame

/-- The declaration of a schema is the one of that name in any pool that holds its unit. -/
theorem declaration_eq_of_mem (hs : s.pool.Built) (ht : t.pool.Built)
    (hmem : t.file ∈ s.pool.files) (hname : s.fullName = t.fullName) :
    s.file = t.file ∧ s.declaration = t.declaration := by
  obtain ⟨hsfile, hsdecl, -⟩ := exists_declared hs
  obtain ⟨-, htdecl, -⟩ := exists_declared ht
  have hfile : s.file = t.file := by
    refine hs.eq_of_declares (List.mem_of_getElem? hsfile) hmem
      (List.mem_map.mpr ⟨_, Declaration.mem_ofFile_of_message hsdecl, rfl⟩)
      (List.mem_map.mpr ⟨_, Declaration.mem_ofFile_of_message htdecl, hname.symm⟩)
  refine ⟨hfile, ?_⟩
  rw [← hfile] at htdecl
  have heq := List.inj_on_of_nodup_map (hs.nodup_declared (List.mem_of_getElem? hsfile))
    (Declaration.mem_ofFile_of_message hsdecl) (Declaration.mem_ofFile_of_message htdecl) hname
  exact (Declaration.message.inj heq).2.2

theorem declaration_eq (hs : s.pool.Built) (ht : Within t.pool s.pool)
    (hname : s.fullName = t.fullName) : s.file = t.file ∧ s.declaration = t.declaration := by
  obtain ⟨htfile, -, -⟩ := exists_declared ht.built
  exact declaration_eq_of_mem hs ht.built (ht.files _ (List.mem_of_getElem? htfile)) hname

/-- **A message of a smaller pool** is isomorphic to the message of that name. -/
theorem isomorphic_of_within (hs : s.pool.Built) (ht : Within t.pool s.pool)
    (hq : ∀ u ∈ t.pool.files, s.pool.Qualified u) (hname : s.fullName = t.fullName) :
    Isomorphic s t := by
  -- having the same name in the two pools is a relation that types may refer back to
  refine ⟨SameName s.pool t.pool, ⟨rfl, rfl, hname⟩, ?_⟩
  intro a b ⟨ha, hb, hab⟩
  rw [← ha] at hs hq
  rw [← ha, ← hb] at ht ⊢
  rw [← hb] at hq
  obtain ⟨hfile, hdecl⟩ := declaration_eq hs ht hab
  obtain ⟨hplace, hmem, -⟩ := exists_declared hs
  obtain ⟨hplace', -, -⟩ := exists_declared ht.built
  refine fieldsAgree_of_shared hs ht.built (congrArg MessageDescriptor.fields hdecl) ?_
  intro field hfield hplain
  have hunit := List.mem_of_getElem? hplace'
  rw [← hfile] at hunit hplace'
  obtain ⟨name, v, htype, hr, hdeclares⟩ := hq _ hunit _ hmem field hfield hplain
  exact ⟨name, v, htype, hs.mem_take_of_reaches hplace hr,
    ht.built.mem_take_of_reaches hplace' (ht.reaches hs hunit hr), hdeclares⟩

/-- No field of a self-contained message refers to a type. -/
theorem plain?_ne_none (hs : s.pool.Built) (hself : s.isSelfContained = true)
    {field : FieldDescriptor} (hfield : field ∈ s.declaration.fields) : field.plain? ≠ none := by
  intro hplain
  obtain ⟨-, -, hfields⟩ := exists_declared hs
  obtain ⟨f, hmem, hf⟩ := forall₂_left_mem (mapM_eq_ok_iff.mp hfields) field hfield
  obtain ⟨kind, default?, hkind, -, -, rfl⟩ := resolveField_eq_ok.mp hf
  have hnot := List.all_eq_true.mp hself _ hmem
  rcases fieldKind_eq_ok.mp hkind with hsome | ⟨ref, -, -, rfl⟩
  · rw [hplain] at hsome
    cases hsome
  · simp at hnot

/-- **A message that refers to no other type** is isomorphic to every message with its fields. -/
theorem isomorphic_of_selfContained (hs : s.pool.Built) (ht : t.pool.Built)
    (hself : s.isSelfContained = true) (hd : s.declaration.fields = t.declaration.fields) :
    Isomorphic s t := by
  have hfields := fieldsAgree_of_shared hs ht hd fun field hfield hplain =>
    absurd hplain (plain?_ne_none hs hself hfield)
  refine ⟨fun a b => a = s ∧ b = t, ⟨rfl, rfl⟩, ?_⟩
  rintro a b ⟨rfl, rfl⟩
  have hplain : ∀ f ∈ a.fields, f.kind.isReference = false := by
    simpa using List.all_eq_true.mp hself
  refine ((List.forall₂_and_left _ _).mpr ⟨hplain, hfields⟩).imp ?_
  intro f g ⟨hf, h⟩
  exact ⟨h.name, h.number, h.kind.of_plain hf, h.repeated, h.default?⟩

end Schema

end CellFilter
