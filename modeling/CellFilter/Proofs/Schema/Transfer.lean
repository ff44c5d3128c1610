import CellFilter.Proofs.Schema.Resolution
import Mathlib.Data.List.Pairwise

/-!
# The same fields in another pool

A field whose type name is fully qualified is resolved alike wherever the unit that declares its
type is there.  So a unit of a pool can be added to every smaller pool that holds its imports.

* `resolveField_transfer`: resolving a declared field in two scopes.
* `FileDescriptor.Qualified`: a unit whose type names are fully qualified and lead into its imports.
* `Within.addFile_eq_ok`: adding a unit of a pool to a smaller one.
-/

namespace CellFilter

open Outcome Relation

/-! ## One field in two scopes -/

/-- Kinds in two scopes that are equal or refer to types of the same name; for enumerations also of
the same values. -/
inductive SameKind (P Q : SchemaPool) : FieldKind → FieldKind → Prop
  | plain {kind : FieldKind} : kind.isReference = false → SameKind P Q kind kind
  | message {i j : Nat} {name : String} : P.type? name = some (.message i) →
      Q.type? name = some (.message j) → SameKind P Q (.message i) (.message j)
  | enum {i j : Nat} {e : EnumType} : P.enums[i]? = some e → Q.enums[j]? = some e →
      SameKind P Q (.enum i) (.enum j)

/-- Fields in two scopes that say the same. -/
structure SameField (P Q : SchemaPool) (f g : Field) : Prop where
  name : f.name = g.name
  number : f.number = g.number
  kind : SameKind P Q f.kind g.kind
  repeated : f.repeated = g.repeated
  default? : f.default? = g.default?

namespace SchemaPool

variable {files others : List FileDescriptor} {unit v : FileDescriptor} {name scope scope' : String}

theorem plain?_eq_none_of_suits {field : FieldDescriptor} {ref : TypeRef}
    (h : ref.Suits field.type?) : field.plain? = none := by
  have hcode : field.type? = none ∨ field.type? = some 11 ∨ field.type? = some 14 := by
    cases ref <;> rcases h with h | h <;> simp [h]
  rcases hcode with h | h | h <;> rw [FieldDescriptor.plain?, h] <;> rfl

/-- Distinct names in the scope of some units. -/
def Clear (files : List FileDescriptor) : Prop :=
  ((Declaration.ofFiles files).map Declaration.fullName).Nodup

theorem scopeOf_message {path : List Nat} {descriptor : MessageDescriptor} (hf : Clear files)
    (hv : v ∈ files) (hd : .message name path descriptor ∈ Declaration.ofFile v) :
    ∃ i, (scopeOf files).type? name = some (.message i) := by
  have hm : (name, path, descriptor) ∈ Declaration.messages (Declaration.ofFiles files) :=
    List.mem_filterMap.mpr ⟨_, List.mem_flatMap.mpr ⟨v, hv, hd⟩, rfl⟩
  obtain ⟨i, hi, hget⟩ := List.getElem_of_mem hm
  refine ⟨i, (scopeOf_type? hf).mpr (Declaration.mem_refs_message.mpr ⟨i, (Nat.zero_add i).symm, ?_⟩)⟩
  rw [List.getElem?_eq_getElem hi, hget]
  rfl

theorem scopeOf_enum {descriptor : EnumDescriptor} (hf : Clear files) (hv : v ∈ files)
    (hd : .enum name descriptor ∈ Declaration.ofFile v) :
    ∃ i, (scopeOf files).type? name = some (.enum i) ∧ (scopeOf files).enums[i]? =
      some ⟨name, descriptor.values.map fun v => (v.name, v.number)⟩ := by
  have hm : ⟨name, descriptor.values.map fun v => (v.name, v.number)⟩ ∈
      Declaration.enumTypes (Declaration.ofFiles files) :=
    List.mem_filterMap.mpr ⟨_, List.mem_flatMap.mpr ⟨v, hv, hd⟩, rfl⟩
  obtain ⟨i, hi, hget⟩ := List.getElem_of_mem hm
  have hplace := List.getElem?_eq_getElem hi
  rw [hget] at hplace
  refine ⟨i, (scopeOf_type? hf).mpr (Declaration.mem_refs_enum.mpr ⟨i, (Nat.zero_add i).symm, ?_⟩),
    hplace⟩
  rw [hplace]
  rfl

/-- A name stands for the same in two scopes that hold the unit that declares it. -/
theorem sameKind_of_declared (hf : Clear files) (ho : Clear others) (hv : v ∈ files)
    (hv' : v ∈ others) (hn : v.Declares name) {ref : TypeRef}
    (hr : (scopeOf files).type? name = some ref) : ∃ ref' : TypeRef,
      (scopeOf others).type? name = some ref' ∧
      SameKind (scopeOf files) (scopeOf others) ref.kind ref'.kind ∧
      (∀ code?, ref.Suits code? → ref'.Suits code?) := by
  obtain ⟨d, hd, rfl⟩ := List.mem_map.mp hn
  cases d with
  | message n path descriptor =>
    obtain ⟨i, hi⟩ := scopeOf_message hf hv hd
    obtain ⟨j, hj⟩ := scopeOf_message ho hv' hd
    obtain rfl : ref = .message i := Option.some.inj (hr.symm.trans hi)
    exact ⟨.message j, hj, .message hi hj, fun _ h => h⟩
  | enum n descriptor =>
    obtain ⟨i, hi, hei⟩ := scopeOf_enum hf hv hd
    obtain ⟨j, hj, hej⟩ := scopeOf_enum ho hv' hd
    obtain rfl : ref = .enum i := Option.some.inj (hr.symm.trans hi)
    exact ⟨.enum j, hj, .enum hei hej, fun _ h => h⟩

theorem fieldDefault_of_sameKind {P Q : SchemaPool} {kind kind' : FieldKind}
    (h : SameKind P Q kind kind') {fullName fullName' : String} {text? : Option String}
    {default? : Option Atom} (hd : P.fieldDefault fullName kind text? = .ok default?) :
    Q.fieldDefault fullName' kind' text? = .ok default? := by
  cases text? with
  | none => exact hd
  | some text =>
    have hread : Default.read? kind (P.enumOf? kind) text =
        Default.read? kind' (Q.enumOf? kind') text := by
      cases h with
      | plain hp => cases kind <;> first | rfl | cases hp
      | message _ _ => rfl
      | enum hi hj =>
        simp only [enumOf?, hi, hj]
        rfl
    simp only [fieldDefault, hread] at hd ⊢
    cases hv : Default.read? kind' (Q.enumOf? kind') text with
    | none => rw [hv] at hd; cases hd
    | some value => rw [hv] at hd; exact hd

/-- Whether a field refers to no type, or by its fully qualified name to one of a unit that both
lists hold. -/
def Shared (files others : List FileDescriptor) (field : FieldDescriptor) : Prop :=
  field.plain? = none → ∃ name v, field.typeName = "." ++ name ∧ v ∈ files ∧ v ∈ others ∧
    v.Declares name

theorem candidates_qualified (scope name : String) : candidates scope ("." ++ name) = [name] := by
  have habsolute : ("." ++ name).toList = '.' :: name.toList := by simp
  rw [candidates_absolute habsolute, String.ofList_toList]

/-- **One field in two scopes** is resolved to fields that say the same. -/
theorem resolveField_transfer (hf : Clear files) (ho : Clear others) {field : FieldDescriptor}
    (hs : Shared files others field) {f : Field}
    (h : (scopeOf files).resolveField scope field = .ok f) :
    ∃ g, (scopeOf others).resolveField scope' field = .ok g ∧
      SameField (scopeOf files) (scopeOf others) f g := by
  obtain ⟨kind, default?, hkind, hdefault, hnumber, rfl⟩ := resolveField_eq_ok.mp h
  obtain ⟨kind', hkind', hsame⟩ : ∃ kind', (scopeOf others).fieldKind scope' field = .ok kind' ∧
      SameKind (scopeOf files) (scopeOf others) kind kind' := by
    rcases fieldKind_eq_ok.mp hkind with hplain | ⟨ref, hsuits, hres, rfl⟩
    · obtain ⟨code, -, hcode⟩ := Option.bind_eq_some_iff.mp hplain
      exact ⟨kind, fieldKind_eq_ok.mpr (Or.inl hplain), .plain (plainKind?_not_reference hcode)⟩
    · obtain ⟨name, v, hname, hv, hv', hdeclared⟩ := hs (plain?_eq_none_of_suits hsuits)
      rw [resolveType_eq_ok, hname, candidates_qualified, List.findSome?_singleton] at hres
      obtain ⟨ref', hres', hsame, hsuits'⟩ := sameKind_of_declared hf ho hv hv' hdeclared hres
      refine ⟨ref'.kind, fieldKind_eq_ok.mpr (Or.inr ⟨ref', hsuits' _ hsuits, ?_, rfl⟩), hsame⟩
      rw [resolveType_eq_ok, hname, candidates_qualified, List.findSome?_singleton]
      exact hres'
  exact ⟨_, resolveField_eq_ok.mpr ⟨kind', default?, hkind',
    fieldDefault_of_sameKind hsame hdefault, hnumber, rfl⟩, ⟨rfl, rfl, hsame, rfl, rfl⟩⟩

/-! ## Units in a smaller pool -/

variable {P Q : SchemaPool}

theorem Built.clear (h : P.Built) : Clear P.files := h.typeNames

theorem Built.clear_take (h : P.Built) (k : Nat) : Clear (P.files.take k) := by
  have hn := h.typeNames
  rw [Declaration.ofFiles_take _ k, List.map_append] at hn
  exact hn.of_append_left

/-- A name is declared by one unit only. -/
theorem Built.eq_of_declares (h : P.Built) (hu : unit ∈ P.files) (hv : v ∈ P.files)
    (hn : unit.Declares name) (hn' : v.Declares name) : unit = v := by
  have hall := h.typeNames
  rw [Declaration.ofFiles, List.map_flatMap, List.nodup_flatMap] at hall
  have hsymm : Std.Symm (Function.onFun List.Disjoint fun u : FileDescriptor =>
      (Declaration.ofFile u).map Declaration.fullName) := ⟨fun a b hab => hab.symm⟩
  by_contra hne
  exact hall.2.forall hu hv hne hn hn'

theorem Built.nodup_declared (h : P.Built) (hu : unit ∈ P.files) :
    ((Declaration.ofFile unit).map Declaration.fullName).Nodup := by
  have hall := h.typeNames
  rw [Declaration.ofFiles, List.map_flatMap, List.nodup_flatMap] at hall
  exact hall.1 unit hu

/-- Every declared message was made. -/
theorem Built.exists_made (h : P.Built) {k : Nat} (hk : P.files[k]? = some unit)
    {d : String × List Nat × MessageDescriptor}
    (hd : d ∈ Declaration.messages (Declaration.ofFile unit)) :
    ∃ m ∈ P.messages, (scopeOf (P.files.take (k + 1))).Makes k d m := by
  have hu := List.mem_of_getElem? hk
  have hmem : d.1 ∈ (Declaration.messages (Declaration.ofFiles P.files)).map Prod.fst := by
    obtain ⟨declared, hdecl, hmade⟩ := List.mem_filterMap.mp hd
    exact List.mem_map.mpr ⟨d, List.mem_filterMap.mpr
      ⟨declared, List.mem_flatMap.mpr ⟨unit, hu, hdecl⟩, hmade⟩, rfl⟩
  rw [← h.messageNames] at hmem
  obtain ⟨m, hm, hname⟩ := List.mem_map.mp hmem
  obtain ⟨unit', d', hunit', hd', hmade⟩ := h.made m hm
  have hsame : d'.1 = d.1 := hmade.fullName.symm.trans hname
  have hdecl : unit.Declares d.1 :=
    List.mem_map.mpr ⟨_, Declaration.mem_ofFile_of_message hd, rfl⟩
  have hdecl' : unit'.Declares d.1 :=
    List.mem_map.mpr ⟨_, Declaration.mem_ofFile_of_message hd', hsame⟩
  obtain rfl := h.eq_of_declares hu (List.mem_of_getElem? hunit') hdecl hdecl'
  have hplace : m.file = k := (h.place_eq hunit').symm.trans (h.place_eq hk)
  have heq := List.inj_on_of_nodup_map (h.nodup_declared hu)
    (Declaration.mem_ofFile_of_message hd') (Declaration.mem_ofFile_of_message hd) hsame
  obtain ⟨n, path, descriptor⟩ := d
  obtain ⟨n', path', descriptor'⟩ := d'
  cases heq
  rw [hplace] at hmade
  exact ⟨m, hm, hmade⟩

/-- The type names of a unit are fully qualified and lead into the unit or what it rests on. -/
def Qualified (P : SchemaPool) (unit : FileDescriptor) : Prop :=
  ∀ d ∈ Declaration.messages (Declaration.ofFile unit), ∀ field ∈ d.2.2.fields,
    field.plain? = none → ∃ name v, field.typeName = "." ++ name ∧
      ReflTransGen P.Imports unit v ∧ v.Declares name

/-- What a message of a unit refers to is found among any units with those that the unit rests on. -/
theorem Built.exists_fields (hP : P.Built) {k : Nat} (hplace : P.files[k]? = some unit)
    {files : List FileDescriptor} (hclear : Clear files) (hq : P.Qualified unit)
    (hreached : ∀ w, ReflTransGen P.Imports unit w → w ∈ files)
    {d : String × List Nat × MessageDescriptor}
    (hd : d ∈ Declaration.messages (Declaration.ofFile unit)) :
    ∃ fields, d.2.2.fields.mapM ((scopeOf files).resolveField d.1) = .ok fields := by
  obtain ⟨m, -, hm⟩ := hP.exists_made hplace hd
  refine exists_mapM_eq_ok fun field hfield => ?_
  obtain ⟨f, -, hf⟩ := forall₂_left_mem (mapM_eq_ok_iff.mp hm.fields) field hfield
  have hshared : Shared (P.files.take (k + 1)) files field := by
    intro hplain
    obtain ⟨name, w, hname, hr, hdecl⟩ := hq d hd field hfield hplain
    exact ⟨name, w, hname, hP.mem_take_of_reaches hplace hr, hreached w hr, hdecl⟩
  obtain ⟨g, hg, -⟩ := resolveField_transfer (hP.clear_take _) hclear hshared hf
  exact ⟨g, hg⟩

/-- One pool was built of units of another one. -/
structure Within (Q P : SchemaPool) : Prop where
  built : Q.Built
  files : ∀ u ∈ Q.files, u ∈ P.files

namespace Within

theorem mem_of_reaches (h : Within Q P) (hP : P.Built) (hr : ReflTransGen P.Imports unit v)
    (hu : unit ∈ Q.files) : v ∈ Q.files := by
  induction hr with
  | refl => exact hu
  | tail _ hstep ih =>
    obtain ⟨found, hfound, hname⟩ := h.built.exists_dependency ih hstep.2.2
    rw [← hP.eq_of_name (h.files found hfound.2.1) hstep.2.1 hname]
    exact hfound.2.1

theorem fresh (h : Within Q P) (hP : P.Built) (hu : unit ∈ P.files) (hnew : unit ∉ Q.files) :
    Q.Fresh (Declaration.ofFile unit) := by
  refine ⟨hP.nodup_declared hu, fun d hd => ?_⟩
  by_contra hknown
  have hsome : (Q.type? d.fullName).isSome = true := Option.isSome_iff_ne_none.mpr hknown
  rw [h.built.type?_eq, scopeOf_type?_isSome, mem_ofFiles_fullName] at hsome
  obtain ⟨w, hw, hdecl⟩ := hsome
  obtain rfl := hP.eq_of_declares hu (h.files w hw) (List.mem_map_of_mem hd) hdecl
  exact hnew hw

/-- **A unit can be added** to a smaller pool that holds its imports. -/
theorem addFile_eq_ok (h : Within Q P) (hP : P.Built) (hu : unit ∈ P.files) (hnew : unit ∉ Q.files)
    (himports : ∀ w, P.Imports unit w → w ∈ Q.files) (hq : P.Qualified unit) :
    ∃ Q', Q.addFile unit = .ok Q' ∧ Within Q' P ∧ Q'.files = Q.files ++ [unit] := by
  have hname : Q.containsFile unit.name = false := by
    rw [← Bool.not_eq_true, containsFile_iff]
    rintro ⟨w, hw, hwname⟩
    rw [hP.eq_of_name (h.files w hw) hu hwname] at hw
    exact hnew hw
  have hfresh := h.fresh hP hu hnew
  have hdeps : ∀ d ∈ unit.dependencies, Q.containsFile d = true := by
    intro d hd
    obtain ⟨w, hw, hwname⟩ := hP.exists_dependency hu hd
    exact containsFile_iff.mpr ⟨w, himports w hw, hwname⟩
  have hclear : Clear (Q.files ++ [unit]) := h.built.typeNames_concat hfresh
  obtain ⟨k, hk, hget⟩ := List.getElem_of_mem hu
  have hplace := List.getElem?_eq_some_iff.mpr ⟨hk, hget⟩
  have hreached : ∀ w, ReflTransGen P.Imports unit w → w ∈ Q.files ++ [unit] := by
    intro w hr
    rcases ReflTransGen.cases_head hr with rfl | ⟨middle, hstep, hrest⟩
    · exact List.mem_append_right _ (List.mem_singleton_self _)
    · exact List.mem_append_left _ (h.mem_of_reaches hP hrest (himports middle hstep))
  obtain ⟨Q', hadd, hfiles⟩ := h.built.exists_addFile hname hdeps hfresh fun d hd =>
    hP.exists_fields hplace hclear hq hreached hd
  refine ⟨Q', hadd, ⟨h.built.add hadd, ?_⟩, hfiles⟩
  rw [hfiles]
  intro w hw
  rcases List.mem_append.mp hw with hw | hw
  · exact h.files w hw
  · rw [List.mem_singleton.mp hw]
    exact hu

end Within

end SchemaPool

end CellFilter
