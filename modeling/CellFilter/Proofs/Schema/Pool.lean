import CellFilter.Proofs.Lookup
import CellFilter.Proofs.Outcome
import CellFilter.Schema.Basic

/-!
# What a pool holds

A pool that was built unit by unit is determined by its units: its types are those that the units
declare, in the order of declaration, and every field was resolved against the types of the units
up to its own.

* `addFile_eq_ok`: what adding a new unit comes to.
* `SchemaPool.Reachable`: the pools that adding units leads to.
* `SchemaPool.Built`: what holds of each of them, by `Reachable.built`.
-/

namespace CellFilter

open Outcome

/-! ## What declarations come to -/

namespace Declaration

/-- A declared message: its name, the way to it and its descriptor. -/
def message? : Declaration → Option (String × List Nat × MessageDescriptor)
  | .message name path descriptor => some (name, path, descriptor)
  | .enum _ _ => none

/-- The enumeration that a declaration makes. -/
def enumType? : Declaration → Option EnumType
  | .message _ _ _ => none
  | .enum name descriptor => some ⟨name, descriptor.values.map fun v => (v.name, v.number)⟩

/-- The declared messages. -/
def messages (ds : List Declaration) : List (String × List Nat × MessageDescriptor) :=
  ds.filterMap message?

/-- The declared enumerations. -/
def enumTypes (ds : List Declaration) : List EnumType := ds.filterMap enumType?

/-- The names of types with what they stand for, so many messages and enumerations being there
already. -/
def refs (messages enums : Nat) : List Declaration → List (String × TypeRef)
  | [] => []
  | .message name _ _ :: rest => (name, .message messages) :: refs (messages + 1) enums rest
  | .enum name _ :: rest => (name, .enum enums) :: refs messages (enums + 1) rest

/-- Everything units declare. -/
def ofFiles (files : List FileDescriptor) : List Declaration := files.flatMap ofFile

variable {name : String} {path : List Nat} {descriptor : MessageDescriptor}
  {enumeration : EnumDescriptor} {ds : List Declaration}

@[simp] theorem messages_nil : messages [] = [] := rfl

@[simp] theorem messages_message : messages (.message name path descriptor :: ds) =
    (name, path, descriptor) :: messages ds := rfl

@[simp] theorem messages_enum : messages (.enum name enumeration :: ds) = messages ds := rfl

@[simp] theorem messages_append (ds more : List Declaration) :
    messages (ds ++ more) = messages ds ++ messages more := List.filterMap_append

@[simp] theorem enumTypes_nil : enumTypes [] = [] := rfl

@[simp] theorem enumTypes_message :
    enumTypes (.message name path descriptor :: ds) = enumTypes ds := rfl

@[simp] theorem enumTypes_enum : enumTypes (.enum name enumeration :: ds) =
    ⟨name, enumeration.values.map fun v => (v.name, v.number)⟩ :: enumTypes ds := rfl

@[simp] theorem enumTypes_append (ds more : List Declaration) :
    enumTypes (ds ++ more) = enumTypes ds ++ enumTypes more := List.filterMap_append

theorem ofFiles_take (files : List FileDescriptor) (k : Nat) :
    ofFiles files = ofFiles (files.take k) ++ ofFiles (files.drop k) := by
  rw [ofFiles, ofFiles, ofFiles, ← List.flatMap_append, List.take_append_drop]

@[simp] theorem refs_keys (m e : Nat) (ds : List Declaration) :
    (refs m e ds).map Prod.fst = ds.map fullName := by
  induction ds generalizing m e with
  | nil => rfl
  | cons d rest ih => cases d <;> simp [refs, fullName, ih]

theorem refs_append (m e : Nat) (ds more : List Declaration) : refs m e (ds ++ more) =
    refs m e ds ++ refs (m + (messages ds).length) (e + (enumTypes ds).length) more := by
  induction ds generalizing m e with
  | nil => rfl
  | cons d rest ih => cases d <;> simp [refs, ih, Nat.add_assoc, Nat.add_comm 1]

theorem mem_refs_message {m e i : Nat} : (name, TypeRef.message i) ∈ refs m e ds ↔
    ∃ j, i = m + j ∧ ((messages ds)[j]?).map Prod.fst = some name := by
  induction ds generalizing m e with
  | nil => simp [refs]
  | cons d rest ih =>
    cases d with
    | enum other enumeration => simp [refs, ih]
    | message other path descriptor =>
      rw [refs, List.mem_cons, ih, messages_message, Prod.mk.injEq, TypeRef.message.injEq]
      constructor
      · rintro (⟨rfl, rfl⟩ | ⟨j, rfl, hj⟩)
        · exact ⟨0, rfl, rfl⟩
        · exact ⟨j + 1, by omega, by simpa using hj⟩
      · rintro ⟨j, rfl, hj⟩
        cases j with
        | zero => exact Or.inl ⟨by simpa using hj.symm, rfl⟩
        | succ j => exact Or.inr ⟨j, by omega, by simpa using hj⟩

theorem mem_refs_enum {m e i : Nat} : (name, TypeRef.enum i) ∈ refs m e ds ↔
    ∃ j, i = e + j ∧ ((enumTypes ds)[j]?).map EnumType.fullName = some name := by
  induction ds generalizing m e with
  | nil => simp [refs]
  | cons d rest ih =>
    cases d with
    | message other path descriptor => simp [refs, ih]
    | enum other enumeration =>
      rw [refs, List.mem_cons, ih, enumTypes_enum, Prod.mk.injEq, TypeRef.enum.injEq]
      constructor
      · rintro (⟨rfl, rfl⟩ | ⟨j, rfl, hj⟩)
        · exact ⟨0, rfl, rfl⟩
        · exact ⟨j + 1, by omega, by simpa using hj⟩
      · rintro ⟨j, rfl, hj⟩
        cases j with
        | zero => exact Or.inl ⟨by simpa using hj.symm, rfl⟩
        | succ j => exact Or.inr ⟨j, by omega, by simpa using hj⟩

end Declaration

/-! ## Adding a unit -/

namespace SchemaPool

variable {pool next declared : SchemaPool} {ds : List Declaration} {file : FileDescriptor}

/-- The pool with what a unit declares, fields still missing. -/
def withDeclared (pool : SchemaPool) (ds : List Declaration) : SchemaPool where
  files := pool.files
  messages := pool.messages ++
    (Declaration.messages ds).map fun d => ⟨d.1, pool.files.length, d.2.1, []⟩
  enums := pool.enums ++ Declaration.enumTypes ds
  types := (Declaration.refs pool.messages.length pool.enums.length ds).reverse ++ pool.types

/-- Whether the declared names differ from each other and from all names of a pool. -/
def Fresh (pool : SchemaPool) (ds : List Declaration) : Prop :=
  (ds.map Declaration.fullName).Nodup ∧ ∀ d ∈ ds, pool.type? d.fullName = none

theorem declare_eq_ok {d : Declaration} : pool.declare d = .ok next ↔
    pool.type? d.fullName = none ∧ next = pool.withDeclared [d] := by
  cases h : pool.type? d.fullName with
  | some ref => simp [declare, h]
  | none =>
    cases d <;> simp [declare, h, withDeclared, Declaration.refs, eq_comm]

@[simp] theorem withDeclared_nil (pool : SchemaPool) : pool.withDeclared [] = pool := by
  simp [withDeclared, Declaration.refs]

theorem withDeclared_append (pool : SchemaPool) (ds more : List Declaration) :
    pool.withDeclared (ds ++ more) = (pool.withDeclared ds).withDeclared more := by
  simp [withDeclared, Declaration.refs_append]

theorem type?_withDeclared_eq_none {name : String} :
    (pool.withDeclared ds).type? name = none ↔
      name ∉ ds.map Declaration.fullName ∧ pool.type? name = none := by
  rw [type?, withDeclared, List.lookup_append, Option.or_eq_none_iff, List.lookup_eq_none_iff,
    ← Declaration.refs_keys pool.messages.length pool.enums.length ds]
  refine and_congr_left' ?_
  simp only [List.mem_reverse, List.mem_map, not_exists, not_and, bne_iff_ne, ne_eq]
  exact forall₂_congr fun entry _ => not_congr eq_comm

theorem fresh_cons {d : Declaration} : pool.Fresh (d :: ds) ↔
    pool.type? d.fullName = none ∧ (pool.withDeclared [d]).Fresh ds := by
  simp only [Fresh, type?_withDeclared_eq_none, List.map_cons, List.nodup_cons, List.mem_cons,
    forall_eq_or_imp, List.map_nil, List.not_mem_nil, or_false, forall_and, List.mem_map,
    not_exists, not_and]
  constructor
  · rintro ⟨⟨hd, hn⟩, h, hp⟩
    exact ⟨h, hn, hd, hp⟩
  · rintro ⟨h, hn, hd, hp⟩
    exact ⟨⟨hd, hn⟩, h, hp⟩

/-- Declaring succeeds exactly for fresh names. -/
theorem foldlM_declare_eq_ok : ds.foldlM declare pool = .ok next ↔
    pool.Fresh ds ∧ next = pool.withDeclared ds := by
  induction ds generalizing pool with
  | nil => simp [Fresh, eq_comm]
  | cons d rest ih =>
    have hcons : pool.withDeclared (d :: rest) = (pool.withDeclared [d]).withDeclared rest :=
      withDeclared_append pool [d] rest
    rw [List.foldlM_cons, bind_eq_ok, fresh_cons, hcons]
    constructor
    · rintro ⟨middle, hm, h⟩
      obtain ⟨hd, rfl⟩ := declare_eq_ok.mp hm
      obtain ⟨hf, rfl⟩ := ih.mp h
      exact ⟨⟨hd, hf⟩, rfl⟩
    · rintro ⟨⟨hd, hf⟩, rfl⟩
      exact ⟨_, declare_eq_ok.mpr ⟨hd, rfl⟩, ih.mpr ⟨hf, rfl⟩⟩

/-! ### Fields -/

/-- Resolving fields looks at names and enumerations only. -/
theorem resolveField_congr {other : SchemaPool} (ht : pool.types = other.types)
    (he : pool.enums = other.enums) : pool.resolveField = other.resolveField := by
  have htype : pool.resolveType = other.resolveType := by
    funext scope typeName
    unfold resolveType type?
    rw [ht]
  have henum : pool.enumOf? = other.enumOf? := by
    funext kind
    cases kind <;> simp only [enumOf?, he]
  funext scope field
  simp only [resolveField, fieldKind, fieldDefault, htype, henum]

/-- A message type as a unit at some place declares it, its fields resolved against a pool. -/
structure Makes (pool : SchemaPool) (file : Nat) (d : String × List Nat × MessageDescriptor)
    (m : MessageType) : Prop where
  fullName : m.fullName = d.1
  file : m.file = file
  path : m.path = d.2.1
  fields : d.2.2.fields.mapM (pool.resolveField d.1) = .ok m.fields

theorem resolveDeclared_eq_ok {fields : List (List Field)} :
    pool.resolveDeclared ds = .ok fields ↔ List.Forall₂
      (fun d fs => d.2.2.fields.mapM (pool.resolveField d.1) = .ok fs)
      (Declaration.messages ds) fields := by
  induction ds generalizing fields with
  | nil => simp [resolveDeclared, List.forall₂_nil_left_iff, eq_comm]
  | cons d rest ih =>
    cases d with
    | enum name enumeration => rw [resolveDeclared, ih, Declaration.messages_enum]
    | message name path descriptor =>
      rw [resolveDeclared, Declaration.messages_message, List.forall₂_cons_left_iff, bind_eq_ok]
      constructor
      · rintro ⟨first, hf, h⟩
        obtain ⟨others, ho, h⟩ := bind_eq_ok.mp h
        cases h
        exact ⟨first, others, hf, ih.mp ho, rfl⟩
      · rintro ⟨first, others, hf, ho, rfl⟩
        exact ⟨first, hf, bind_eq_ok.mpr ⟨others, ih.mpr ho, rfl⟩⟩

theorem forall₂_makes {D : SchemaPool} {file : Nat} {fields : List (List Field)}
    {messages : List (String × List Nat × MessageDescriptor)} (h : List.Forall₂
      (fun d fs => d.2.2.fields.mapM (D.resolveField d.1) = .ok fs) messages fields) :
    List.Forall₂ (D.Makes file) messages
      ((messages.map fun d => (⟨d.1, file, d.2.1, []⟩ : MessageType)).zipWith
        (fun m fs => { m with fields := fs }) fields) := by
  induction h with
  | nil => exact .nil
  | cons hfirst _ ih => exact .cons ⟨rfl, rfl, rfl, hfirst⟩ ih

/-- What a pool looks like once a unit with some message types is added. -/
def withUnit (pool : SchemaPool) (file : FileDescriptor) (made : List MessageType) :
    SchemaPool where
  files := pool.files ++ [file]
  messages := pool.messages ++ made
  enums := pool.enums ++ Declaration.enumTypes (Declaration.ofFile file)
  types := (Declaration.refs pool.messages.length pool.enums.length
    (Declaration.ofFile file)).reverse ++ pool.types

theorem Makes.forall₂_unique {D : SchemaPool} {file : Nat}
    {messages : List (String × List Nat × MessageDescriptor)} {made made' : List MessageType}
    (h : List.Forall₂ (D.Makes file) messages made) (h' : List.Forall₂ (D.Makes file) messages made') :
    made = made' := by
  induction h generalizing made' with
  | nil => cases h'; rfl
  | @cons d m _ _ hm _ ih =>
    cases h' with
    | cons hm' hrest' =>
      rename_i m' made''
      have hfields : m.fields = m'.fields := Except.ok.inj (hm.fields.symm.trans hm'.fields)
      obtain ⟨name, place, path, fields⟩ := m
      obtain ⟨name', place', path', fields'⟩ := m'
      obtain ⟨rfl, rfl, rfl, -⟩ := hm
      obtain ⟨rfl, rfl, rfl, -⟩ := hm'
      rw [ih hrest', show fields = fields' from hfields]

theorem Makes.forall₂_names {D : SchemaPool} {file : Nat}
    {messages : List (String × List Nat × MessageDescriptor)} {made : List MessageType}
    (h : List.Forall₂ (D.Makes file) messages made) :
    made.map MessageType.fullName = messages.map Prod.fst := by
  induction h with
  | nil => rfl
  | cons hm _ ih => rw [List.map_cons, List.map_cons, hm.fullName, ih]

theorem withFields_withDeclared {fields : List (List Field)} :
    (pool.withDeclared (Declaration.ofFile file)).withFields pool.messages.length fields =
      { pool.withUnit file (((Declaration.messages (Declaration.ofFile file)).map fun d =>
          (⟨d.1, pool.files.length, d.2.1, []⟩ : MessageType)).zipWith
            (fun m fs => { m with fields := fs }) fields) with files := pool.files } := by
  simp [withFields, withDeclared, withUnit]

theorem register_eq_ok : pool.register file = .ok next ↔
    pool.Fresh (Declaration.ofFile file) ∧ ∃ made,
      List.Forall₂ ((pool.withDeclared (Declaration.ofFile file)).Makes pool.files.length)
        (Declaration.messages (Declaration.ofFile file)) made ∧
      next = { pool.withUnit file made with files := pool.files } := by
  rw [register, bind_eq_ok]
  constructor
  · rintro ⟨declared, hd, h⟩
    obtain ⟨hf, rfl⟩ := foldlM_declare_eq_ok.mp hd
    obtain ⟨fields, hr, h⟩ := bind_eq_ok.mp h
    cases h
    exact ⟨hf, _, forall₂_makes (resolveDeclared_eq_ok.mp hr), withFields_withDeclared⟩
  · rintro ⟨hf, made, hm, rfl⟩
    have hr : List.Forall₂ (fun d fs => d.2.2.fields.mapM
        ((pool.withDeclared (Declaration.ofFile file)).resolveField d.1) = .ok fs)
        (Declaration.messages (Declaration.ofFile file)) (made.map MessageType.fields) := by
      rw [List.forall₂_map_right_iff]
      exact hm.imp fun _ _ h => h.fields
    refine ⟨_, foldlM_declare_eq_ok.mpr ⟨hf, rfl⟩,
      bind_eq_ok.mpr ⟨_, resolveDeclared_eq_ok.mpr hr, ?_⟩⟩
    rw [withFields_withDeclared, Makes.forall₂_unique (forall₂_makes hr) hm]
    rfl

/-- **Adding a unit** of a new name succeeds exactly if its dependencies are there, its names are
fresh and its fields can be resolved. -/
theorem addFile_eq_ok (hnew : pool.containsFile file.name = false) :
    pool.addFile file = .ok next ↔
      (∀ d ∈ file.dependencies, pool.containsFile d = true) ∧
      pool.Fresh (Declaration.ofFile file) ∧ ∃ made,
        List.Forall₂ ((pool.withDeclared (Declaration.ofFile file)).Makes pool.files.length)
          (Declaration.messages (Declaration.ofFile file)) made ∧
        next = pool.withUnit file made := by
  rw [addFile, hnew]
  simp only [Bool.false_eq_true, if_false]
  cases hd : file.dependencies.find? fun d => !pool.containsFile d with
  | some missing =>
    have hmem := List.mem_of_find?_eq_some hd
    have hmiss := List.find?_some hd
    refine ⟨fun h => (by cases h), fun h => ?_⟩
    rw [h.1 missing hmem] at hmiss
    cases hmiss
  | none =>
    have hall : ∀ d ∈ file.dependencies, pool.containsFile d = true := by
      simpa using List.find?_eq_none.mp hd
    show (pool.register file >>= _) = _ ↔ _
    rw [bind_eq_ok]
    constructor
    · rintro ⟨registered, hr, h⟩
      obtain ⟨hf, made, hm, rfl⟩ := register_eq_ok.mp hr
      cases h
      exact ⟨hall, hf, made, hm, rfl⟩
    · rintro ⟨-, hf, made, hm, rfl⟩
      exact ⟨_, register_eq_ok.mpr ⟨hf, made, hm, rfl⟩, rfl⟩

theorem addFile_of_contains (h : pool.containsFile file.name = true) :
    pool.addFile file = .ok pool := by
  rw [addFile, if_pos h]
  rfl

/-! ## Built pools -/

/-- The pools that adding units one after the other leads to. -/
inductive Reachable : SchemaPool → Prop
  | empty : Reachable .empty
  | add {pool next : SchemaPool} {file : FileDescriptor} : Reachable pool →
      pool.addFile file = .ok next → Reachable next

/-- What resolving fields looks at when so many units are there. -/
def scopeOf (files : List FileDescriptor) : SchemaPool where
  files := []
  messages := []
  enums := Declaration.enumTypes (Declaration.ofFiles files)
  types := (Declaration.refs 0 0 (Declaration.ofFiles files)).reverse

/-- What holds of every pool that was built unit by unit. -/
structure Built (pool : SchemaPool) : Prop where
  unitNames : (pool.files.map FileDescriptor.name).Nodup
  /-- A unit depends on units further to the front. -/
  imports : ∀ (k : Nat) (unit : FileDescriptor), pool.files[k]? = some unit →
    ∀ d ∈ unit.dependencies,
      ∃ j < k, ∃ dependency : FileDescriptor, pool.files[j]? = some dependency ∧ dependency.name = d
  typeNames : ((Declaration.ofFiles pool.files).map Declaration.fullName).Nodup
  types : pool.types = (Declaration.refs 0 0 (Declaration.ofFiles pool.files)).reverse
  enums : pool.enums = Declaration.enumTypes (Declaration.ofFiles pool.files)
  messageNames : pool.messages.map MessageType.fullName =
    (Declaration.messages (Declaration.ofFiles pool.files)).map Prod.fst
  /-- A message was made from a declaration of its unit, against the types up to that unit. -/
  made : ∀ m ∈ pool.messages, ∃ (unit : FileDescriptor) (d : String × List Nat × MessageDescriptor),
    pool.files[m.file]? = some unit ∧ d ∈ Declaration.messages (Declaration.ofFile unit) ∧
      (scopeOf (pool.files.take (m.file + 1))).Makes m.file d m

theorem file?_eq_none {name : String} :
    pool.file? name = none ↔ name ∉ pool.files.map FileDescriptor.name := by
  simp [file?]

theorem containsFile_iff {name : String} :
    pool.containsFile name = true ↔ ∃ file ∈ pool.files, file.name = name := by
  simp [containsFile, file?]

theorem scopeOf_type?_isSome {files : List FileDescriptor} {name : String} :
    ((scopeOf files).type? name).isSome = true ↔
      name ∈ (Declaration.ofFiles files).map Declaration.fullName := by
  rw [type?, scopeOf, List.lookup_isSome_iff, ← Declaration.refs_keys 0 0]
  simp only [List.mem_reverse, List.mem_map, beq_iff_eq]
  exact exists_congr fun entry => and_congr_right' eq_comm

theorem Built.type?_eq (h : pool.Built) : pool.type? = (scopeOf pool.files).type? := by
  funext name
  rw [type?, type?, h.types, scopeOf]

theorem Built.length_messages (h : pool.Built) : pool.messages.length =
    (Declaration.messages (Declaration.ofFiles pool.files)).length := by
  rw [← List.length_map MessageType.fullName, h.messageNames, List.length_map]

theorem Makes.of_scope {D E : SchemaPool} {k : Nat} {d : String × List Nat × MessageDescriptor}
    {m : MessageType} (h : D.Makes k d m) (ht : D.types = E.types) (he : D.enums = E.enums) :
    E.Makes k d m :=
  ⟨h.fullName, h.file, h.path, resolveField_congr ht he ▸ h.fields⟩

theorem Built.scopeOf_concat (h : pool.Built) (file : FileDescriptor) :
    (pool.withDeclared (Declaration.ofFile file)).types = (scopeOf (pool.files ++ [file])).types ∧
      (pool.withDeclared (Declaration.ofFile file)).enums =
        (scopeOf (pool.files ++ [file])).enums := by
  simp [withDeclared, scopeOf, Declaration.ofFiles, Declaration.refs_append, h.types, h.enums,
    h.length_messages]

/-- A unit can be added if it is new and what it declares can be resolved. -/
theorem Built.exists_addFile (h : pool.Built) (hnew : pool.containsFile file.name = false)
    (hdeps : ∀ d ∈ file.dependencies, pool.containsFile d = true)
    (hfresh : pool.Fresh (Declaration.ofFile file))
    (hfields : ∀ d ∈ Declaration.messages (Declaration.ofFile file), ∃ fields,
      d.2.2.fields.mapM ((scopeOf (pool.files ++ [file])).resolveField d.1) = .ok fields) :
    ∃ next, pool.addFile file = .ok next ∧ next.files = pool.files ++ [file] := by
  have hscope := h.scopeOf_concat file
  have hmade : ∀ d ∈ Declaration.messages (Declaration.ofFile file),
      ∃ m, (pool.withDeclared (Declaration.ofFile file)).Makes pool.files.length d m := by
    intro d hd
    obtain ⟨fields, hresolved⟩ := hfields d hd
    refine ⟨⟨d.1, pool.files.length, d.2.1, fields⟩, rfl, rfl, rfl, ?_⟩
    rw [resolveField_congr hscope.1 hscope.2]
    exact hresolved
  obtain ⟨made, hall⟩ := exists_forall₂ hmade
  exact ⟨_, (addFile_eq_ok hnew).mpr ⟨hdeps, hfresh, made, hall, rfl⟩, rfl⟩

/-- The names stay unique if those of a new unit are fresh. -/
theorem Built.typeNames_concat (h : pool.Built) (hfresh : pool.Fresh (Declaration.ofFile file)) :
    ((Declaration.ofFiles (pool.files ++ [file])).map Declaration.fullName).Nodup := by
  have hcontent : Declaration.ofFiles (pool.files ++ [file]) =
      Declaration.ofFiles pool.files ++ Declaration.ofFile file := by
    simp [Declaration.ofFiles]
  rw [hcontent, List.map_append, List.nodup_append']
  refine ⟨h.typeNames, hfresh.1, ?_⟩
  intro name hold hnew
  obtain ⟨d, hd, rfl⟩ := List.mem_map.mp hnew
  rw [← scopeOf_type?_isSome, ← h.type?_eq, hfresh.2 d hd] at hold
  cases hold

/-- Every unit still stands behind its dependencies when those of a new one are there. -/
theorem Built.imports_concat (h : pool.Built)
    (hdeps : ∀ d ∈ file.dependencies, pool.containsFile d = true) (k : Nat) (unit : FileDescriptor)
    (hk : (pool.files ++ [file])[k]? = some unit) (d : String) (hd : d ∈ unit.dependencies) :
    ∃ j < k, ∃ dependency : FileDescriptor,
      (pool.files ++ [file])[j]? = some dependency ∧ dependency.name = d := by
  rcases Nat.lt_or_ge k pool.files.length with hlt | hge
  · rw [List.getElem?_append_left hlt] at hk
    obtain ⟨j, hj, dependency, hget, hname⟩ := h.imports k unit hk d hd
    exact ⟨j, hj, dependency, by rw [List.getElem?_append_left (by omega), hget], hname⟩
  · have hunit : k = pool.files.length ∧ unit = file := by
      rw [List.getElem?_append_right hge, List.getElem?_singleton] at hk
      split_ifs at hk with h0
      exact ⟨by omega, (Option.some.inj hk).symm⟩
    obtain ⟨rfl, rfl⟩ := hunit
    obtain ⟨dependency, hmem, hname⟩ := containsFile_iff.mp (hdeps d hd)
    obtain ⟨j, hj, hget⟩ := List.getElem_of_mem hmem
    refine ⟨j, hj, dependency, ?_, hname⟩
    rw [List.getElem?_append_left hj, List.getElem?_eq_getElem hj, hget]

theorem Built.add (h : pool.Built) (ha : pool.addFile file = .ok next) : next.Built := by
  cases hc : pool.containsFile file.name with
  | true =>
    rw [addFile_of_contains hc] at ha
    cases ha
    exact h
  | false =>
    obtain ⟨hdeps, hfresh, made, hmade, rfl⟩ := (addFile_eq_ok hc).mp ha
    have hcontent : Declaration.ofFiles (pool.files ++ [file]) =
        Declaration.ofFiles pool.files ++ Declaration.ofFile file := by
      simp [Declaration.ofFiles]
    have hscope := h.scopeOf_concat file
    constructor
    case unitNames =>
      have hnew : file.name ∉ pool.files.map FileDescriptor.name := by
        rw [← file?_eq_none]
        simpa [containsFile] using hc
      simp only [withUnit, List.map_append, List.map_cons, List.map_nil]
      exact List.nodup_append'.mpr ⟨h.unitNames, List.nodup_singleton _, by simpa using hnew⟩
    case imports => exact h.imports_concat hdeps
    case typeNames => exact h.typeNames_concat hfresh
    case types => simpa [withUnit, withDeclared, scopeOf] using hscope.1
    case enums => simpa [withUnit, withDeclared, scopeOf] using hscope.2
    case messageNames =>
      have hnames : made.map MessageType.fullName =
          (Declaration.messages (Declaration.ofFile file)).map Prod.fst :=
        Makes.forall₂_names hmade
      simp only [withUnit, List.map_append, hcontent, Declaration.messages_append, hnames,
        h.messageNames]
    case made =>
      intro m hm
      rcases List.mem_append.mp hm with hm | hm
      · obtain ⟨unit, d, hunit, hd, hmakes⟩ := h.made m hm
        have hlt : m.file < pool.files.length := (List.getElem?_eq_some_iff.mp hunit).1
        refine ⟨unit, d, by rw [withUnit, List.getElem?_append_left hlt, hunit], hd, ?_⟩
        rw [withUnit, List.take_append_of_le_length (by omega)]
        exact hmakes
      · obtain ⟨d, hd, hmakes⟩ := forall₂_right_mem hmade m hm
        have hplace : m.file = pool.files.length := hmakes.file
        refine ⟨file, d, by simp [withUnit, hplace], hd, ?_⟩
        rw [hplace, withUnit, List.take_of_length_le (by simp)]
        exact hmakes.of_scope hscope.1 hscope.2

theorem Reachable.built (h : pool.Reachable) : pool.Built := by
  induction h with
  | empty =>
    constructor <;> simp [SchemaPool.empty, Declaration.ofFiles, Declaration.refs]
  | add _ ha ih => exact ih.add ha

/-! ## Names -/

theorem scopeOf_type? {files : List FileDescriptor} {name : String} {ref : TypeRef}
    (hn : ((Declaration.ofFiles files).map Declaration.fullName).Nodup) :
    (scopeOf files).type? name = some ref ↔
      (name, ref) ∈ Declaration.refs 0 0 (Declaration.ofFiles files) := by
  rw [type?, scopeOf, lookup_eq_some_iff_mem, List.mem_reverse]
  rw [List.map_reverse, Declaration.refs_keys]
  exact List.nodup_reverse.mpr hn

/-- The messages of a pool by name. -/
theorem Built.type?_message (h : pool.Built) {name : String} {i : Nat} :
    pool.type? name = some (.message i) ↔
      (pool.messages[i]?).map MessageType.fullName = some name := by
  rw [h.type?_eq, scopeOf_type? h.typeNames, Declaration.mem_refs_message, ← List.getElem?_map,
    h.messageNames]
  simp

/-- The enumerations of a pool by name. -/
theorem Built.type?_enum (h : pool.Built) {name : String} {i : Nat} :
    pool.type? name = some (.enum i) ↔ (pool.enums[i]?).map EnumType.fullName = some name := by
  rw [h.type?_eq, scopeOf_type? h.typeNames, Declaration.mem_refs_enum, h.enums]
  simp

/-- What a name stood for when only the first units were there, it still stands for. -/
theorem Built.type?_of_take (h : pool.Built) {k : Nat} {name : String} {ref : TypeRef}
    (hr : (scopeOf (pool.files.take k)).type? name = some ref) : pool.type? name = some ref := by
  have hn := h.typeNames
  rw [Declaration.ofFiles_take _ k, List.map_append] at hn
  rw [scopeOf_type? hn.of_append_left] at hr
  rw [h.type?_eq, scopeOf_type? h.typeNames, Declaration.ofFiles_take _ k, Declaration.refs_append]
  exact List.mem_append_left _ hr

end SchemaPool

end CellFilter
