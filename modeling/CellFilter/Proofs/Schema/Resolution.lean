import CellFilter.Payload.Basic
import CellFilter.Proofs.Schema.Declared

/-!
# Where type names lead

A type name is searched among the names of the whole pool, so that units that have nothing to do
with each other may meet in it.

* `resolveType_eq_ok`: a search finds the first of its candidates that is declared.
* `fieldKind_refers`: a field refers to what its type name leads to.
* `declared_in_closure_iff`: a field refers into the closure of its unit exactly if the closure alone
  leads its type name to the same type.
-/

namespace CellFilter

open Outcome Relation

/-- A unit declares a type of that fully qualified name. -/
def FileDescriptor.Declares (unit : FileDescriptor) (name : String) : Prop :=
  name ∈ (Declaration.ofFile unit).map Declaration.fullName

namespace TypeRef

/-- The kind of a field that refers to a type. -/
def kind : TypeRef → FieldKind
  | .message index => .message index
  | .enum index => .enum index

/-- Whether a field with a type number may refer to a type; without one it may refer to any. -/
def Suits (code? : Option Int32) : TypeRef → Prop
  | .message _ => code? = none ∨ code? = some 11
  | .enum _ => code? = none ∨ code? = some 14

@[simp] theorem kind_isReference (ref : TypeRef) : ref.kind.isReference = true := by
  cases ref <;> rfl

theorem kind_injective : Function.Injective kind := by
  intro a b h
  cases a <;> cases b <;> simp_all [kind]

end TypeRef

namespace FieldDescriptor

/-- The kind of a field that refers to no other type. -/
def plain? (field : FieldDescriptor) : Option FieldKind :=
  field.type?.bind fun code => SchemaPool.plainKind? code.toInt

/-- The name of the type that a field refers to, if it refers to one. -/
def typeName (field : FieldDescriptor) : String := field.typeName?.getD ""

end FieldDescriptor

namespace SchemaPool

variable {pool : SchemaPool} {scope typeName name : String} {ref : TypeRef}

/-- The names that a type name may stand for inside a scope, the nearest first. -/
def candidates (scope typeName : String) : List String :=
  match typeName.toList with
  | '.' :: absolute => [String.ofList absolute]
  | _ => (enclosingScopes scope.toList).map fun s => qualify (String.ofList s) typeName

/-- The pool with no other types than those of some units. -/
def limitedTo (pool : SchemaPool) (units : List FileDescriptor) : SchemaPool :=
  { pool with types := pool.types.filter fun entry =>
      ((Declaration.ofFiles units).map Declaration.fullName).contains entry.1 }

theorem candidates_absolute {absolute : List Char} (h : typeName.toList = '.' :: absolute) :
    candidates scope typeName = [String.ofList absolute] := by
  simp only [candidates, h]

theorem candidates_relative (h : ∀ absolute, typeName.toList ≠ '.' :: absolute) :
    candidates scope typeName =
      (enclosingScopes scope.toList).map fun s => qualify (String.ofList s) typeName := by
  unfold candidates
  split
  · rename_i absolute habsolute
    exact absurd habsolute (h absolute)
  · rfl

/-- A search goes through its candidates and fails if none of them is declared. -/
theorem resolveType_eq (pool : SchemaPool) (scope typeName : String) :
    pool.resolveType scope typeName = ((candidates scope typeName).findSome? pool.type?).elim
      (.error (.unresolvedType typeName scope)) .ok := by
  unfold resolveType
  split
  · rename_i absolute habsolute
    rw [candidates_absolute habsolute, List.findSome?_singleton]
    cases pool.type? (String.ofList absolute) <;> rfl
  · rename_i hrelative
    rw [candidates_relative hrelative, List.findSome?_map, Function.comp_def]
    dsimp only
    cases (enclosingScopes scope.toList).findSome? fun s =>
      pool.type? (qualify (String.ofList s) typeName) <;> rfl

/-- A search finds the first candidate that is declared. -/
theorem resolveType_eq_ok : pool.resolveType scope typeName = .ok ref ↔
    (candidates scope typeName).findSome? pool.type? = some ref := by
  rw [resolveType_eq]
  cases (candidates scope typeName).findSome? pool.type? <;> simp

theorem plainKind?_not_reference {code : Int} {kind : FieldKind}
    (h : plainKind? code = some kind) : kind.isReference = false := by
  unfold plainKind? at h
  split at h <;> first | (cases h; rfl) | cases h

/-- **The kind of a field** is plain or that of a suitable type that its type name leads to. -/
theorem fieldKind_eq_ok {field : FieldDescriptor} {kind : FieldKind} :
    pool.fieldKind scope field = .ok kind ↔ field.plain? = some kind ∨
      ∃ ref : TypeRef, ref.Suits field.type? ∧
        pool.resolveType scope field.typeName = .ok ref ∧ kind = ref.kind := by
  unfold fieldKind FieldDescriptor.plain? FieldDescriptor.typeName
  cases hcode : field.type? with
  | none =>
    simp only [bind_eq_ok, Option.bind_none, reduceCtorEq, false_or]
    refine exists_congr fun ref => ?_
    cases ref <;> simp [TypeRef.Suits, TypeRef.kind, eq_comm]
  | some code =>
    simp only [Option.bind_some]
    cases hplain : plainKind? code.toInt with
    | some plain =>
      have hsuits : ∀ ref : TypeRef, ¬ ref.Suits (some code) := by
        intro ref hs
        have hnamed : code = 11 ∨ code = 14 := by
          cases ref <;> simp [TypeRef.Suits] at hs <;> simp [hs]
        rcases hnamed with rfl | rfl <;> cases hplain
      simp [hsuits, eq_comm]
    | none =>
      simp only [reduceCtorEq, false_or]
      split_ifs with hmessage henum
      · rw [bind_eq_ok]
        refine exists_congr fun ref => ?_
        cases ref <;> simp [TypeRef.Suits, TypeRef.kind, hmessage, eq_comm]
      · rw [bind_eq_ok]
        refine exists_congr fun ref => ?_
        cases ref <;> simp [TypeRef.Suits, TypeRef.kind, henum, eq_comm]
      · refine iff_of_false (by simp) ?_
        rintro ⟨ref, hs, -⟩
        cases ref <;> simp [TypeRef.Suits, hmessage, henum] at hs

/-- What a resolved field comes to. -/
theorem resolveField_eq_ok {field : FieldDescriptor} {made : Field} :
    pool.resolveField scope field = .ok made ↔ ∃ kind default?,
      pool.fieldKind scope field = .ok kind ∧
      pool.fieldDefault (qualify scope field.name) kind field.defaultValue? = .ok default? ∧
      0 ≤ (field.number?.getD 0).toInt ∧
      made = ⟨field.name, qualify scope field.name, (field.number?.getD 0).toInt.toNat, kind,
        field.label? == some repeatedLabel, default?⟩ := by
  unfold resolveField
  simp only [bind_eq_ok]
  constructor
  · rintro ⟨kind, hk, default?, hd, h⟩
    split_ifs at h with hn
    · cases h
    · cases h
      exact ⟨kind, default?, hk, hd, by omega, rfl⟩
  · rintro ⟨kind, default?, hk, hd, hn, rfl⟩
    refine ⟨kind, hk, default?, hd, ?_⟩
    rw [if_neg (by omega)]
    rfl

theorem mem_ofFiles_fullName {units : List FileDescriptor} :
    name ∈ (Declaration.ofFiles units).map Declaration.fullName ↔ ∃ u ∈ units, u.Declares name := by
  simp only [Declaration.ofFiles, List.map_flatMap, List.mem_flatMap, FileDescriptor.Declares]

theorem type?_limitedTo {units : List FileDescriptor} :
    (pool.limitedTo units).type? name = some ref ↔
      pool.type? name = some ref ∧ ∃ u ∈ units, u.Declares name := by
  rw [← mem_ofFiles_fullName, type?, limitedTo, lookup_filter_key]
  by_cases hn : name ∈ (Declaration.ofFiles units).map Declaration.fullName
  · simp [hn, type?]
  · simp [hn]

end SchemaPool

namespace Schema

variable {s : Schema}

theorem kindName_of_type? (h : s.pool.Built) {name : String} {ref : TypeRef}
    (hr : s.pool.type? name = some ref) : s.kindName ref.kind = name := by
  cases ref with
  | message i => rw [TypeRef.kind, kindName, h.type?_message.mp hr, Option.getD_some]
  | enum i => rw [TypeRef.kind, kindName, h.type?_enum.mp hr, Option.getD_some]

/-- A field of a schema was made from a field of its declaration. -/
theorem exists_field_declared (h : s.pool.Built) {j : Nat} {f : Field}
    (hf : s.fields[j]? = some f) : ∃ d, s.declaration.fields[j]? = some d ∧
      (SchemaPool.scopeOf (s.pool.files.take (s.type.file + 1))).resolveField s.fullName d = .ok f := by
  obtain ⟨-, -, hfields⟩ := exists_declared h
  exact getElem?_of_mapM hfields hf

/-- What the units that a unit rests on declare is in scope for its fields. -/
theorem scopeOf_of_declares {pool : SchemaPool} (h : pool.Built) {k : Nat} {unit u : FileDescriptor}
    {name : String} (hk : pool.files[k]? = some unit) (hr : ReflTransGen pool.Imports unit u)
    (hn : u.Declares name) :
    ((SchemaPool.scopeOf (pool.files.take (k + 1))).type? name).isSome = true := by
  rw [SchemaPool.scopeOf_type?_isSome, SchemaPool.mem_ofFiles_fullName]
  exact ⟨u, h.mem_take_of_reaches hk hr, hn⟩

/-- **Where a field refers.**  The type of a field is declared in the closure of its unit exactly if
the names of the closure alone lead the type name of the field to that type. -/
theorem declared_in_closure_iff (hs : s.pool.Reachable) {j : Nat} {f : Field}
    (hf : s.fields[j]? = some f) (href : f.kind.isReference = true) :
    ∃ units d ref, s.pool.closure s.file.name = .ok units ∧
      (∀ u, u ∈ units ↔ ReflTransGen s.pool.Imports s.file u) ∧
      s.declaration.fields[j]? = some d ∧ f.kind = TypeRef.kind ref ∧
      ((∃ u ∈ units, u.Declares (s.kindName f.kind)) ↔
        (s.pool.limitedTo units).resolveType s.fullName d.typeName = .ok ref) := by
  have h := hs.built
  obtain ⟨hfile, -, -⟩ := exists_declared h
  obtain ⟨units, hclosure, -, hunits⟩ := h.closure_eq (List.mem_of_getElem? hfile)
  obtain ⟨d, hd, hmade⟩ := exists_field_declared h hf
  obtain ⟨kind, default?, hkind, -, -, rfl⟩ := SchemaPool.resolveField_eq_ok.mp hmade
  rcases SchemaPool.fieldKind_eq_ok.mp hkind with hplain | ⟨ref, -, hres, rfl⟩
  · obtain ⟨code, -, hcode⟩ := Option.bind_eq_some_iff.mp hplain
    rw [SchemaPool.plainKind?_not_reference hcode] at href
    cases href
  refine ⟨units, d, ref, hclosure, hunits, hd, rfl, ?_⟩
  rw [SchemaPool.resolveType_eq_ok] at hres ⊢
  constructor
  -- a nearer name that the closure declares would have been met in the whole pool as well
  · intro hdeclared
    obtain ⟨before, name, after, hsplit, hname, hbefore⟩ := List.findSome?_eq_some_iff.mp hres
    have hpool := h.type?_of_take hname
    rw [kindName_of_type? h hpool] at hdeclared
    refine List.findSome?_eq_some_iff.mpr ⟨before, name, after, hsplit,
      SchemaPool.type?_limitedTo.mpr ⟨hpool, hdeclared⟩, ?_⟩
    intro nearer hnearer
    by_contra hfound
    obtain ⟨other, hother⟩ := Option.ne_none_iff_exists'.mp hfound
    obtain ⟨-, u, hu, hdecl⟩ := SchemaPool.type?_limitedTo.mp hother
    have hscope := scopeOf_of_declares h hfile ((hunits u).mp hu) hdecl
    rw [hbefore nearer hnearer] at hscope
    cases hscope
  · intro hlimited
    obtain ⟨before, name, after, -, hname, -⟩ := List.findSome?_eq_some_iff.mp hlimited
    obtain ⟨hpool, hdeclared⟩ := SchemaPool.type?_limitedTo.mp hname
    rw [kindName_of_type? h hpool]
    exact hdeclared

/-! ### Two units that do not know of each other -/

/-- A unit with one message, which has no field. -/
def baseUnit : FileDescriptor where
  name? := some "base.proto"
  package? := some "demo"
  dependencies := []
  messages := [⟨some "Base", [], [], [], []⟩]
  enums := []
  carried := []

/-- A unit whose message has a field of the type of the other unit. -/
def topUnit (dependencies : List String) : FileDescriptor where
  name? := some "top.proto"
  package? := some "demo"
  dependencies
  messages :=
    [⟨some "Top", [⟨some "base", none, some 1, none, some 11, some ".demo.Base", none, []⟩], [], [],
      []⟩]
  enums := []
  carried := []

/-- The pool of both units. -/
def topPool (dependencies : List String) : SchemaPool where
  files := [baseUnit, topUnit dependencies]
  messages :=
    [⟨"demo.Base", 0, [0], []⟩,
      ⟨"demo.Top", 1, [0], [⟨"base", "demo.Top.base", 1, .message 0, false, none⟩]⟩]
  enums := []
  types := [("demo.Top", .message 1), ("demo.Base", .message 0)]

/-- The message of the second unit. -/
def topSchema (dependencies : List String) : Schema where
  pool := topPool dependencies
  index := 1
  index_lt := Nat.one_lt_two

/-- The pool of the first unit alone. -/
def basePool : SchemaPool where
  files := [baseUnit]
  messages := [⟨"demo.Base", 0, [0], []⟩]
  enums := []
  types := [("demo.Base", .message 0)]

theorem basePool_reachable : basePool.Reachable := by
  have hbase : SchemaPool.empty.addFile baseUnit = .ok basePool := by rfl
  exact .add .empty hbase

theorem topPool_reachable : (topPool ["base.proto"]).Reachable := by
  have htop : basePool.addFile (topUnit ["base.proto"]) = .ok (topPool ["base.proto"]) := by rfl
  exact .add basePool_reachable htop

/-- With the first unit among its imports, the second one refers into its closure. -/
theorem declared_in_closure_of_import : ∃ units,
    (topPool ["base.proto"]).closure "top.proto" = .ok units ∧
      ∃ u ∈ units, u.Declares "demo.Base" := by
  obtain ⟨units, d, ref, hclosure, -, hd, hkind, hiff⟩ :=
    declared_in_closure_iff (s := topSchema ["base.proto"]) topPool_reachable (j := 0) rfl rfl
  refine ⟨units, hclosure, hiff.mpr ?_⟩
  have hunits : (topPool ["base.proto"]).closure "top.proto" =
      .ok [topUnit ["base.proto"], baseUnit] := by rfl
  obtain rfl : units = [topUnit ["base.proto"], baseUnit] :=
    Except.ok.inj (hclosure.symm.trans hunits)
  obtain rfl : ref = .message 0 := TypeRef.kind_injective hkind.symm
  cases hd
  rfl

/-- Without it, the pool still leads the type name to the first unit, which a payload then does not
carry. -/
theorem not_declared_in_closure : (topPool []).Reachable ∧
    (∃ f ∈ (topSchema []).fields, f.kind.isReference = true ∧
      ∀ u, ReflTransGen (topPool []).Imports (topSchema []).file u →
        ¬ u.Declares ((topSchema []).kindName f.kind)) ∧
    Payload.body (topSchema []) >>= Payload.schemaOfBody =
      .error (.unresolvedType ".demo.Base" "demo.Top") := by
  have htop : basePool.addFile (topUnit []) = .ok (topPool []) := by rfl
  have hlost : Payload.body (topSchema []) >>= Payload.schemaOfBody =
      .error (.unresolvedType ".demo.Base" "demo.Top") := by
    with_unfolding_all rfl
  refine ⟨.add basePool_reachable htop, ⟨_, List.mem_cons_self, rfl, ?_⟩, hlost⟩
  intro u hr
  have hu : u = topUnit [] := by
    induction hr with
    | refl => rfl
    | tail _ hstep ih =>
      rw [ih] at hstep
      cases hstep.2.2
  have hnames : "demo.Base" ∉ (Declaration.ofFile (topUnit [])).map Declaration.fullName := by
    decide +kernel
  rw [hu]
  exact hnames

end Schema

end CellFilter
