import CellFilter.Proofs.Schema.Isomorphism
import CellFilter.Proofs.Schema.Registration

/-!
# Pools are well-formed

Whatever units were added, and whether or not they could be added, the places and names that a pool
holds are those of something that the pool holds as well.  So nothing that is asked of a schema goes
out of bounds.

* `SchemaPool.WellFormed`: what holds of the tables of a pool.
* `Schema.InBounds`: every question to a schema finds what it looks up.
* `WellFormed.inBounds`: **the first gives the second**.
* `Reachable.afterCalls`: a call that fails leads to no other pools than calls that succeed.
* `afterCalls_wellFormed`: **every sequence of calls** leaves a well-formed pool.
-/

namespace CellFilter

open Outcome

/-! ## Fields by number -/

theorem fieldPlaces_concat (fields : List Field) (f : Field) :
    fieldPlaces (fields ++ [f]) = (f.number, fields.length) :: fieldPlaces fields := by
  simp [fieldPlaces, List.zipIdx_append]

theorem lt_of_lookup_fieldPlaces {fields : List Field} {number i : Nat}
    (h : (fieldPlaces fields).lookup number = some i) : i < fields.length := by
  obtain ⟨before, after, hsplit, -⟩ := List.lookup_eq_some_iff.mp h
  have hmem : (number, i) ∈ fieldPlaces fields :=
    hsplit ▸ List.mem_append_right before List.mem_cons_self
  obtain ⟨entry, hentry, heq⟩ := List.mem_map.mp (List.mem_reverse.mp hmem)
  cases heq
  exact List.snd_lt_of_mem_zipIdx hentry

/-- The table leads to the last field of a number. -/
theorem bind_lookup_fieldPlaces (fields : List Field) (number : Nat) :
    (((fieldPlaces fields).lookup number).bind fun i => fields[i]?) =
      fields.reverse.find? fun f => f.number == number := by
  induction fields using List.reverseRecOn with
  | nil => rfl
  | append_singleton fields f ih =>
    rw [fieldPlaces_concat, List.lookup_cons, List.reverse_concat, List.find?_cons]
    by_cases hf : number = f.number
    · simp [hf]
    · rw [beq_false_of_ne hf, beq_false_of_ne (Ne.symm hf), ← ih]
      refine Option.bind_congr fun i hi => ?_
      rw [List.getElem?_append_left (lt_of_lookup_fieldPlaces hi)]

/-- Every number of a field is in the table, and its place is that of a field of the number. -/
theorem exists_lookup_fieldPlaces {fields : List Field} {f : Field} (hf : f ∈ fields) :
    ∃ i g, (fieldPlaces fields).lookup f.number = some i ∧ fields[i]? = some g ∧
      g.number = f.number := by
  have hfound : (fields.reverse.find? fun g => g.number == f.number).isSome = true :=
    List.find?_isSome.mpr ⟨f, List.mem_reverse.mpr hf, beq_self_eq_true _⟩
  obtain ⟨g, hg⟩ := Option.isSome_iff_exists.mp hfound
  have hnumber : g.number = f.number := by simpa using List.find?_some hg
  rw [← bind_lookup_fieldPlaces] at hg
  obtain ⟨i, hi, hget⟩ := Option.bind_eq_some_iff.mp hg
  exact ⟨i, g, hi, hget, hnumber⟩

/-! ## What is looked up -/

namespace Schema

variable (s : Schema)

/-- The unit at the place that the message type gives. -/
def fileAt? : Option FileDescriptor := s.pool.files[s.type.file]?

/-- The message at the end of the path that the message type gives. -/
def declarationAt? : Option MessageDescriptor :=
  s.fileAt?.bind fun unit => unit.messageAt? s.type.path

/-- The name of the type at the place that a kind gives. -/
def kindNameAt? : FieldKind → Option String
  | .message index => s.pool.messages[index]?.map MessageType.fullName
  | .enum index => s.pool.enums[index]?.map EnumType.fullName
  | kind => some kind.typeName

/-- A summary of the schema, if all that it names is there. -/
def summaryAt? : Option SchemaSummary := do
  let unit ← s.fileAt?
  let fields ← s.fields.mapM fun f => (s.kindNameAt? f.kind).map fun kind =>
    { name := f.name
      number := f.number
      kind
      repeated := f.repeated
      default? := f.default?.map Atom.describe }
  return { name := s.fullName, unit := unit.name, fields }

/-- No question to a schema goes out of bounds. -/
structure InBounds (s : Schema) : Prop where
  file : s.fileAt? = some s.file
  declaration : s.declarationAt? = some s.declaration
  fieldByNumber : ∀ f ∈ s.fields, ∃ g ∈ s.fields,
    s.fieldByNumber? f.number = some g ∧ g.number = f.number
  messageSchema : ∀ f ∈ s.fields, ∀ i, f.kind = .message i →
    ∃ t, s.messageSchema? f = some t ∧ t.pool = s.pool ∧ t.index = i
  enumType : ∀ f ∈ s.fields, ∀ i, f.kind = .enum i →
    ∃ e, s.enumType? f = some e ∧ s.pool.enums[i]? = some e
  summary : s.summaryAt? = some s.summary

end Schema

/-- The names and places that a pool holds are those of what it holds. -/
structure SchemaPool.WellFormed (pool : SchemaPool) : Prop where
  /-- No name is there twice. -/
  typeNames : (pool.types.map Prod.fst).Nodup
  /-- No type is there twice. -/
  typeRefs : (pool.types.map Prod.snd).Nodup
  /-- The messages of the table are the messages, each under its full name. -/
  messages : ∀ name i, (name, TypeRef.message i) ∈ pool.types ↔
    pool.messages[i]?.map MessageType.fullName = some name
  /-- The enumerations of the table are the enumerations, each under its full name. -/
  enums : ∀ name i, (name, TypeRef.enum i) ∈ pool.types ↔
    pool.enums[i]?.map EnumType.fullName = some name
  /-- The place and the path of a message lead to the declaration that its fields come from. -/
  declared : ∀ m ∈ pool.messages, ∃ unit d, pool.files[m.file]? = some unit ∧
    unit.messageAt? m.path = some d ∧ d.fields.mapM
      ((scopeOf (pool.files.take (m.file + 1))).resolveField m.fullName) = .ok m.fields
  /-- A field refers to a message or an enumeration of the pool. -/
  kinds : ∀ m ∈ pool.messages, ∀ f ∈ m.fields,
    (∀ i, f.kind = .message i → i < pool.messages.length) ∧
      ∀ i, f.kind = .enum i → i < pool.enums.length
  /-- The number of a field leads to a field of that number. -/
  numbers : ∀ m ∈ pool.messages, ∀ f ∈ m.fields, ∃ i g,
    (fieldPlaces m.fields).lookup f.number = some i ∧ m.fields[i]? = some g ∧ g.number = f.number
  /-- A unit depends on units further to the front. -/
  imports : ∀ (k : Nat) (unit : FileDescriptor), pool.files[k]? = some unit →
    ∀ d ∈ unit.dependencies,
      ∃ j < k, ∃ dependency : FileDescriptor, pool.files[j]? = some dependency ∧ dependency.name = d
  unitNames : (pool.files.map FileDescriptor.name).Nodup

/-! ## Looking up in a well-formed pool -/

namespace Schema

variable {s : Schema}

theorem fieldByNumber?_eq (s : Schema) (number : Nat) : s.fieldByNumber? number =
    ((fieldPlaces s.fields).lookup number).bind fun i => s.fields[i]? :=
  (bind_lookup_fieldPlaces s.fields number).symm

theorem kindNameAt?_eq (h : s.pool.WellFormed) {f : Field} (hf : f ∈ s.fields) :
    s.kindNameAt? f.kind = some (s.kindName f.kind) := by
  obtain ⟨hmessage, henum⟩ := h.kinds s.type s.type_mem f hf
  cases hkind : f.kind with
  | message i => simp [kindNameAt?, kindName, hmessage i hkind]
  | enum i => simp [kindNameAt?, kindName, henum i hkind]
  | _ => rfl

theorem summaryAt?_eq (h : s.pool.WellFormed) (hfile : s.fileAt? = some s.file) :
    s.summaryAt? = some s.summary := by
  have hfields : (s.fields.mapM fun f => (s.kindNameAt? f.kind).map fun kind =>
      ({ name := f.name, number := f.number, kind, repeated := f.repeated
         default? := f.default?.map Atom.describe } : FieldSummary)) = some s.summary.fields := by
    rw [mapM_congr fun f hf => by rw [kindNameAt?_eq h hf]]
    exact List.mapM_pure
  rw [summaryAt?, hfile]
  simp only [Option.bind_eq_bind, Option.bind_some, hfields]
  rfl

end Schema

/-- **Looking up in a well-formed pool** never goes out of bounds. -/
theorem SchemaPool.WellFormed.inBounds {s : Schema} (h : s.pool.WellFormed) : s.InBounds := by
  obtain ⟨unit, d, hunit, hd, -⟩ := h.declared s.type s.type_mem
  have hfile : s.file = unit := by rw [Schema.file, hunit, Option.getD_some]
  subst hfile
  constructor
  case file => exact hunit
  case declaration =>
    rw [Schema.declaration_of_messageAt? hd, Schema.declarationAt?, Schema.fileAt?, hunit]
    exact hd
  case fieldByNumber =>
    intro f hf
    obtain ⟨i, g, hi, hg, hnumber⟩ := h.numbers s.type s.type_mem f hf
    refine ⟨g, List.mem_of_getElem? hg, ?_, hnumber⟩
    rw [s.fieldByNumber?_eq, Schema.fields, hi]
    exact hg
  case messageSchema =>
    intro f hf i hkind
    have hlt := (h.kinds s.type s.type_mem f hf).1 i hkind
    exact ⟨⟨s.pool, i, hlt⟩, by rw [Schema.messageSchema?, hkind]; exact dif_pos hlt, rfl, rfl⟩
  case enumType =>
    intro f hf i hkind
    have hlt := (h.kinds s.type s.type_mem f hf).2 i hkind
    have hget := List.getElem?_eq_getElem hlt
    exact ⟨_, by rw [Schema.enumType?, hkind]; exact hget, hget⟩
  case summary => exact Schema.summaryAt?_eq h hunit

/-! ## Pools that units were added to -/

namespace SchemaPool

variable {pool : SchemaPool}

theorem Built.mem_types (h : pool.Built) {name : String} {ref : TypeRef} :
    (name, ref) ∈ pool.types ↔ pool.type? name = some ref := by
  rw [h.type?_eq, scopeOf_type? h.typeNames, h.types, List.mem_reverse]

theorem Built.nodup_keys (h : pool.Built) : (pool.types.map Prod.fst).Nodup := by
  rw [h.types, List.map_reverse, List.nodup_reverse, Declaration.refs_keys]
  exact h.typeNames

/-- A type has one name only. -/
theorem Built.nodup_refs (h : pool.Built) : (pool.types.map Prod.snd).Nodup := by
  refine (List.Nodup.of_map Prod.fst h.nodup_keys).map_on ?_
  rintro ⟨name, ref⟩ hmem ⟨other, ref'⟩ hother (rfl : ref = ref')
  have hname := h.mem_types.mp hmem
  have hname' := h.mem_types.mp hother
  cases ref with
  | message i =>
    rw [h.type?_message] at hname hname'
    rw [Option.some.inj (hname.symm.trans hname')]
  | enum i =>
    rw [h.type?_enum] at hname hname'
    rw [Option.some.inj (hname.symm.trans hname')]

/-- The type that a resolved field refers to is a type of the pool. -/
theorem Built.exists_type? (h : pool.Built) {k : Nat} {scope : String} {field : FieldDescriptor}
    {f : Field} (hf : (scopeOf (pool.files.take k)).resolveField scope field = .ok f)
    {ref : TypeRef} (hkind : f.kind = ref.kind) : ∃ name, pool.type? name = some ref := by
  obtain ⟨kind, default?, hresolved, -, -, rfl⟩ := resolveField_eq_ok.mp hf
  obtain rfl : kind = ref.kind := hkind
  rcases fieldKind_eq_ok.mp hresolved with hplain | ⟨found, -, hres, hsame⟩
  · obtain ⟨code, -, hcode⟩ := Option.bind_eq_some_iff.mp hplain
    have hnot := plainKind?_not_reference hcode
    rw [TypeRef.kind_isReference] at hnot
    cases hnot
  · obtain ⟨name, -, hname⟩ := List.exists_of_findSome?_eq_some (resolveType_eq_ok.mp hres)
    exact ⟨name, TypeRef.kind_injective hsame ▸ h.type?_of_take hname⟩

theorem Built.wellFormed (h : pool.Built) : pool.WellFormed := by
  constructor
  case typeNames => exact h.nodup_keys
  case typeRefs => exact h.nodup_refs
  case messages => exact fun name i => h.mem_types.trans h.type?_message
  case enums => exact fun name i => h.mem_types.trans h.type?_enum
  case declared =>
    intro m hm
    obtain ⟨unit, ⟨name, path, d⟩, hunit, hd, hmade⟩ := h.made m hm
    obtain rfl : m.fullName = name := hmade.fullName
    obtain rfl : m.path = path := hmade.path
    exact ⟨unit, d, hunit, Declaration.messageAt?_of_mem hd, hmade.fields⟩
  case kinds =>
    intro m hm f hf
    obtain ⟨unit, d, -, -, hmade⟩ := h.made m hm
    obtain ⟨field, -, hfield⟩ := forall₂_right_mem (mapM_eq_ok_iff.mp hmade.fields) f hf
    refine ⟨fun i hi => ?_, fun i hi => ?_⟩
    · obtain ⟨name, hname⟩ := h.exists_type? hfield (show _ = TypeRef.kind (.message i) from hi)
      obtain ⟨found, hfound, -⟩ := Option.map_eq_some_iff.mp (h.type?_message.mp hname)
      exact (List.getElem?_eq_some_iff.mp hfound).1
    · obtain ⟨name, hname⟩ := h.exists_type? hfield (show _ = TypeRef.kind (.enum i) from hi)
      obtain ⟨found, hfound, -⟩ := Option.map_eq_some_iff.mp (h.type?_enum.mp hname)
      exact (List.getElem?_eq_some_iff.mp hfound).1
  case numbers => exact fun m _ f hf => exists_lookup_fieldPlaces hf
  case imports => exact h.imports
  case unitNames => exact h.unitNames

theorem Reachable.addInPlace (h : pool.Reachable) (file : FileDescriptor) :
    (pool.addInPlace file).1.Reachable := by
  rw [addInPlace_eq]
  cases hadd : pool.addFile file with
  | ok next => exact h.add hadd
  | error e => exact h

theorem Reachable.afterCalls (h : pool.Reachable) (files : List FileDescriptor) :
    (pool.afterCalls files).Reachable := by
  induction files generalizing pool with
  | nil => exact h
  | cons file rest ih => exact ih (h.addInPlace file)

/-- **Whatever calls were made**, with or without success, the pool that is left is well-formed, and
no question to any of its schemas goes out of bounds. -/
theorem afterCalls_wellFormed (files : List FileDescriptor) :
    (empty.afterCalls files).WellFormed ∧
      ∀ s : Schema, s.pool = empty.afterCalls files → s.InBounds := by
  have hwell := (Reachable.empty.afterCalls files).built.wellFormed
  exact ⟨hwell, fun s hs => (hs ▸ hwell).inBounds⟩

end SchemaPool

end CellFilter
