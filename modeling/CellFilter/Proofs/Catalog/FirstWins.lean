import CellFilter.Proofs.Catalog.Memo
import CellFilter.Proofs.Filter.Shipping
import CellFilter.Proofs.Payload.Locality
import CellFilter.Proofs.Payload.Order
import CellFilter.Proofs.Text.Order

/-!
# The first declaration of a name

A resource is good if it can be read as units, the units have an order, and a pool takes them in
it.  A catalog is made of the good resources alone: it knows what they declare, and a name stands
for what the first of them declares under it.

* `Resource.Loads`, `Resource.Good`, `Resource.Declares`: what is in a resource.
* `Resource.declares_iff`: the pool of a good resource has the messages that its units declare.
* `Resource.First`: the first of some resources that declares a message.
* `Catalog.find_eq_ok_iff`: a name stands for what the first pool with it has.
* `Catalog.first_declaration_wins`: **the catalog in terms of its resources**, and lookups in any
  order.
-/

namespace CellFilter

open Outcome

/-! ## Pools of units -/

namespace SchemaPool

/-- Units of new names, each once, stand in the pool in the order in which they were added. -/
theorem files_addFiles {units : List FileDescriptor} : ∀ {pool next : SchemaPool},
    ((pool.files ++ units).map FileDescriptor.name).Nodup → pool.addFiles units = .ok next →
      next.files = pool.files ++ units := by
  induction units with
  | nil =>
    intro pool next _ hadd
    cases hadd
    exact (List.append_nil _).symm
  | cons unit units ih =>
    intro pool next hnodup hadd
    rw [addFiles, List.foldlM_cons] at hadd
    obtain ⟨middle, hfirst, hrest⟩ := bind_eq_ok.mp hadd
    have hnew : pool.containsFile unit.name = false := by
      rw [Bool.eq_false_iff, ne_eq, containsFile_iff]
      rintro ⟨file, hfile, hname⟩
      rw [List.map_append, List.nodup_append'] at hnodup
      exact hnodup.2.2 (List.mem_map_of_mem hfile) (by simp [hname])
    obtain ⟨-, -, made, -, rfl⟩ := (addFile_eq_ok hnew).mp hfirst
    have hfiles : (pool.withUnit unit made).files = pool.files ++ [unit] := rfl
    have hnodup' : (((pool.withUnit unit made).files ++ units).map FileDescriptor.name).Nodup := by
      rwa [hfiles, List.append_assoc, List.singleton_append]
    rw [ih hnodup' hrest, hfiles, List.append_assoc, List.singleton_append]

/-- The messages of a built pool are those that its units declare. -/
theorem Built.mem_messageNames {pool : SchemaPool} (h : pool.Built) {name : String} :
    name ∈ pool.messageNames ↔ ∃ unit ∈ pool.files, ∃ path descriptor,
      Declaration.message name path descriptor ∈ Declaration.ofFile unit := by
  rw [SchemaPool.messageNames, h.messageNames, List.mem_map]
  simp only [Declaration.messages, Declaration.ofFiles, List.mem_filterMap, List.mem_flatMap]
  constructor
  · rintro ⟨⟨n, path, descriptor⟩, ⟨declared, ⟨unit, hunit, hmem⟩, hd⟩, rfl⟩
    cases declared with
    | enum => cases hd
    | message =>
      cases hd
      exact ⟨unit, hunit, path, descriptor, hmem⟩
  · rintro ⟨unit, hunit, path, descriptor, hmem⟩
    exact ⟨(name, path, descriptor), ⟨_, ⟨unit, hunit, hmem⟩, rfl⟩, rfl⟩

end SchemaPool

theorem Schema.fullName_mem (s : Schema) : s.fullName ∈ s.pool.messageNames :=
  List.mem_map_of_mem s.type_mem

/-- What a pool has under a name is its message of that full name. -/
theorem Schema.ofPool?_eq_some_iff {pool : SchemaPool} (h : pool.Built) {name : String}
    {s : Schema} : ofPool? pool name = some s ↔ s.pool = pool ∧ s.fullName = trimName name := by
  have htype : ∀ {i : Nat}, pool.type? (trimName name) = some (.message i) ↔
      (pool.messages[i]?).map MessageType.fullName = some (trimName name) := h.type?_message
  constructor
  · intro hs
    unfold ofPool? at hs
    split at hs
    · rename_i i hi
      unfold ofIndex? at hs
      split_ifs at hs with hlt
      obtain rfl := Option.some.inj hs
      rw [htype, List.getElem?_eq_getElem hlt] at hi
      exact ⟨rfl, Option.some.inj hi⟩
    · cases hs
  · rintro ⟨rfl, hname⟩
    have hi := htype.mpr (by rw [List.getElem?_eq_getElem s.index_lt, ← hname]; rfl)
    rw [ofPool?, hi]
    simp only [ofIndex?]
    rw [dif_pos s.index_lt]

/-! ## Resources -/

namespace Resource

variable {resource : Resource} {units : List FileDescriptor} {pool : SchemaPool} {name : String}

/-- A resource is read as these units, and a pool takes them in the order of their dependencies. -/
structure Loads (resource : Resource) (units : List FileDescriptor) (pool : SchemaPool) : Prop where
  decoded : FileDescriptor.decodeSet resource.bytes = .ok units
  taken : ∃ order, dependencyOrder units = .ok order ∧ SchemaPool.empty.addFiles order = .ok pool

/-- A resource that can be read and taken into a pool. -/
def Good (resource : Resource) : Prop := ∃ units pool, resource.Loads units pool

/-- A good resource declares a message if the unit that does is the first of its name. -/
def Declares (resource : Resource) (name : String) : Prop :=
  ∃ units pool, resource.Loads units pool ∧ ∃ unit,
    (units.find? fun u => u.name == unit.name) = some unit ∧ ∃ path descriptor,
      Declaration.message name path descriptor ∈ Declaration.ofFile unit

theorem pool_eq_ok : resource.pool = .ok pool ↔ ∃ units, resource.Loads units pool := by
  unfold Resource.pool
  rw [bind_eq_ok]
  constructor
  · rintro ⟨units, hunits, h⟩
    obtain ⟨order, horder, hadd⟩ := bind_eq_ok.mp h
    cases hdecode : FileDescriptor.decodeSet resource.bytes with
    | error fault => rw [hdecode] at hunits; cases hunits
    | ok found =>
      rw [hdecode] at hunits
      cases hunits
      exact ⟨units, hdecode, order, horder, hadd⟩
  · rintro ⟨units, hdecode, order, horder, hadd⟩
    exact ⟨units, by rw [hdecode]; rfl, bind_eq_ok.mpr ⟨order, horder, hadd⟩⟩

theorem good_iff : resource.Good ↔ resource.pool.toOption.isSome = true := by
  cases hpool : resource.pool with
  | ok pool =>
    obtain ⟨units, h⟩ := pool_eq_ok.mp hpool
    exact ⟨fun _ => rfl, fun _ => ⟨units, pool, h⟩⟩
  | error fault =>
    refine ⟨fun ⟨units, pool, h⟩ => ?_, fun h => by cases h⟩
    rw [pool_eq_ok.mpr ⟨units, h⟩] at hpool
    cases hpool

instance : DecidablePred Good := fun _ => decidable_of_iff' _ good_iff

theorem toOption_pool : resource.pool.toOption = some pool ↔ resource.pool = .ok pool := by
  cases resource.pool <;> simp [Except.toOption]

/-- **The pool of a good resource** has the messages that its units declare. -/
theorem declares_iff :
    resource.Declares name ↔ ∃ pool, resource.pool = .ok pool ∧ name ∈ pool.messageNames := by
  have hpool : ∀ {units pool}, resource.Loads units pool → (name ∈ pool.messageNames ↔ ∃ unit,
      (units.find? fun u => u.name == unit.name) = some unit ∧ ∃ path descriptor,
        Declaration.message name path descriptor ∈ Declaration.ofFile unit) := by
    rintro units pool h
    have hbuilt := (reachable_pool (pool_eq_ok.mpr ⟨units, h⟩)).built
    obtain ⟨-, order, horder, hadd⟩ := h
    have hfiles : pool.files = order :=
      SchemaPool.files_addFiles (nodup_dependencyOrder horder) hadd
    rw [hbuilt.mem_messageNames, hfiles]
    exact exists_congr fun unit => and_congr_left' (mem_dependencyOrder horder)
  constructor
  · rintro ⟨units, pool, h, hunit⟩
    exact ⟨pool, pool_eq_ok.mpr ⟨units, h⟩, (hpool h).mpr hunit⟩
  · rintro ⟨pool, h, hname⟩
    obtain ⟨units, h⟩ := pool_eq_ok.mp h
    exact ⟨units, pool, h, (hpool h).mp hname⟩

theorem not_declares (h : ¬ resource.Good) (name : String) : ¬ resource.Declares name :=
  fun ⟨units, pool, hloads, _⟩ => h ⟨units, pool, hloads⟩

/-- Of some resources, the first that declares a message stands behind these. -/
structure First (resources : List Resource) (name : String) (before : List Resource)
    (resource : Resource) : Prop where
  split : ∃ after, resources = before ++ resource :: after
  fresh : ∀ r ∈ before, ¬ r.Declares name
  declares : resource.Declares name

end Resource

/-! ## Catalogs -/

namespace Catalog

variable {catalog : Catalog} {resources others : List Resource} {level : Nat} {name : String}
  {entry : CatalogEntry} {pools : List SchemaPool}

theorem map_fst_declaredTypes (place : Nat) (pools : List SchemaPool) :
    (declaredTypes place pools).map Prod.fst = pools.flatMap SchemaPool.messageNames := by
  induction pools generalizing place with
  | nil => rfl
  | cons pool rest ih =>
    rw [declaredTypes, List.map_append, ih, List.map_map, List.flatMap_cons]
    simp [Function.comp_def]

theorem lookup_places (names : List String) (place : Nat) :
    (names.map fun n => (n, place)).lookup name = if name ∈ names then some place else none := by
  induction names with
  | nil => rfl
  | cons first rest ih =>
    rw [List.map_cons, List.lookup_cons, ih]
    by_cases h : name = first
    · simp [h]
    · rw [beq_false_of_ne h]
      simp [h]

/-- The place of a name is that of the first pool with it. -/
theorem lookup_declaredTypes {start place : Nat} :
    (declaredTypes start pools).lookup name = some place ↔ ∃ front pool back,
      pools = front ++ pool :: back ∧ (∀ p ∈ front, name ∉ p.messageNames) ∧
        name ∈ pool.messageNames ∧ place = start + front.length := by
  induction pools generalizing start with
  | nil => simp [declaredTypes]
  | cons first rest ih =>
    rw [declaredTypes, List.lookup_append, lookup_places]
    by_cases hfirst : name ∈ first.messageNames
    · rw [if_pos hfirst, Option.some_or, Option.some_inj]
      constructor
      · rintro rfl
        exact ⟨[], first, rest, rfl, by simp, hfirst, rfl⟩
      · rintro ⟨front, pool, back, hsplit, hfront, -, rfl⟩
        cases front with
        | nil => rfl
        | cons p front =>
          obtain ⟨rfl, -⟩ := List.cons_eq_cons.mp hsplit
          exact absurd hfirst (hfront first List.mem_cons_self)
    · rw [if_neg hfirst, Option.none_or, ih]
      constructor
      · rintro ⟨front, pool, back, rfl, hfront, hpool, rfl⟩
        refine ⟨first :: front, pool, back, rfl, ?_, hpool, ?_⟩
        · exact List.forall_mem_cons.mpr ⟨hfirst, hfront⟩
        rw [List.length_cons]
        omega
      · rintro ⟨front, pool, back, hsplit, hfront, hpool, rfl⟩
        cases front with
        | nil =>
          obtain ⟨rfl, -⟩ := List.cons_eq_cons.mp hsplit
          exact absurd hpool hfirst
        | cons p front =>
          obtain ⟨rfl, rfl⟩ := List.cons_eq_cons.mp hsplit
          refine ⟨front, pool, back, rfl, (List.forall_mem_cons.mp hfront).2, hpool, ?_⟩
          rw [List.length_cons]
          omega

/-- **A name stands for** the message that the first pool with it has under it. -/
theorem find_eq_ok_iff (hbuilt : ∀ p ∈ catalog.pools, p.Built)
    (htypes : catalog.types = declaredTypes 0 catalog.pools) (hname : Schema.trimName name = name) :
    catalog.find name = .ok entry ↔ ∃ front back,
      catalog.pools = front ++ entry.schema.pool :: back ∧
        (∀ p ∈ front, name ∉ p.messageNames) ∧ entry.schema.fullName = name ∧
          entry.pool = front.length := by
  rw [find_eq_ok, hname, htypes]
  constructor
  · rintro ⟨pool, hplace, hpool, hs⟩
    obtain ⟨front, first, back, hsplit, hfront, -, hlength⟩ := lookup_declaredTypes.mp hplace
    rw [Nat.zero_add] at hlength
    rw [hlength, hsplit, List.getElem?_append_right le_rfl, Nat.sub_self, List.getElem?_cons_zero]
      at hpool
    obtain rfl := Option.some.inj hpool
    have hmem : first ∈ catalog.pools := by simp [hsplit]
    obtain ⟨hpool, hfull⟩ := (Schema.ofPool?_eq_some_iff (hbuilt first hmem)).mp hs
    exact ⟨front, back, by rw [hpool, hsplit], hfront, hfull.trans hname, hlength⟩
  · rintro ⟨front, back, hsplit, hfront, hfull, hlength⟩
    have hmem : entry.schema.pool ∈ catalog.pools := by simp [hsplit]
    have hdeclared : name ∈ entry.schema.pool.messageNames := hfull ▸ entry.schema.fullName_mem
    refine ⟨entry.schema.pool, ?_, ?_, ?_⟩
    · exact lookup_declaredTypes.mpr ⟨front, _, back, hsplit, hfront, hdeclared, by omega⟩
    · rw [hlength, hsplit, List.getElem?_append_right le_rfl, Nat.sub_self, List.getElem?_cons_zero]
    · exact (Schema.ofPool?_eq_some_iff (hbuilt _ hmem)).mpr ⟨rfl, hfull.trans hname.symm⟩

/-- A name of a message in some pool is found. -/
theorem exists_find (hbuilt : ∀ p ∈ catalog.pools, p.Built)
    (htypes : catalog.types = declaredTypes 0 catalog.pools) (hname : Schema.trimName name = name)
    {pool : SchemaPool} (hpool : pool ∈ catalog.pools) (hmem : name ∈ pool.messageNames) :
    ∃ entry, catalog.find name = .ok entry := by
  cases hfirst : catalog.pools.find? fun p => p.messageNames.contains name with
  | none => exact absurd hmem (by simpa using List.find?_eq_none.mp hfirst pool hpool)
  | some first =>
    obtain ⟨hdeclared, front, back, hsplit, hfront⟩ := List.find?_eq_some_iff_append.mp hfirst
    rw [List.contains_iff_mem, SchemaPool.messageNames, List.mem_map] at hdeclared
    obtain ⟨message, hmessage, hfull⟩ := hdeclared
    obtain ⟨i, hi, rfl⟩ := List.mem_iff_getElem.mp hmessage
    refine ⟨⟨front.length, ⟨first, i, hi⟩⟩,
      (find_eq_ok_iff hbuilt htypes hname).mpr ⟨front, back, hsplit, fun p hp => ?_, hfull, rfl⟩⟩
    simpa using hfront p hp

/-! ## Catalogs of resources -/

theorem mem_pools {pool : SchemaPool} :
    pool ∈ (ofResources resources).pools ↔ ∃ resource ∈ resources, resource.pool = .ok pool := by
  rw [ofResources, List.mem_filterMap]
  exact exists_congr fun resource => and_congr_right' Resource.toOption_pool

theorem built_of_mem_pools : ∀ p ∈ (ofResources resources).pools, p.Built := by
  intro p hp
  obtain ⟨resource, -, hpool⟩ := mem_pools.mp hp
  exact (Resource.reachable_pool hpool).built

theorem mem_typeNames : name ∈ (ofResources resources).typeNames ↔
    ∃ resource ∈ resources, resource.Declares name := by
  have hnames : name ∈ (ofResources resources).typeNames ↔
      ∃ pool ∈ (ofResources resources).pools, name ∈ pool.messageNames := by
    rw [typeNames, Scalar.mem_distinct, ← List.mem_flatMap, ← map_fst_declaredTypes 0]
    rfl
  rw [hnames]
  constructor
  · rintro ⟨pool, hpool, hname⟩
    obtain ⟨resource, hresource, hpool⟩ := mem_pools.mp hpool
    exact ⟨resource, hresource, Resource.declares_iff.mpr ⟨pool, hpool, hname⟩⟩
  · rintro ⟨resource, hresource, hdeclares⟩
    obtain ⟨pool, hpool, hname⟩ := Resource.declares_iff.mp hdeclares
    exact ⟨pool, mem_pools.mpr ⟨resource, hresource, hpool⟩, hname⟩

theorem length_pools (resources : List Resource) :
    (ofResources resources).pools.length = (resources.filter Resource.Good).length := by
  rw [ofResources, List.length_filterMap_eq_countP, ← List.countP_eq_length_filter]
  exact List.countP_congr fun resource _ => by rw [decide_eq_true_iff, Resource.good_iff]

theorem pools_filter (resources : List Resource) :
    (ofResources (resources.filter Resource.Good)).pools = (ofResources resources).pools := by
  rw [ofResources, ofResources, List.filterMap_filter]
  refine List.filterMap_congr fun resource _ => ?_
  by_cases h : resource.Good
  · simp [h]
  · have hnone := mt Resource.good_iff.mpr h
    simp_all

theorem pools_append (before after : List Resource) : (ofResources (before ++ after)).pools =
    (ofResources before).pools ++ (ofResources after).pools := List.filterMap_append

/-- The first pool with a message is that of the first resource that declares it. -/
theorem first_pool_iff {pool : SchemaPool} {place : Nat} (hmem : name ∈ pool.messageNames) :
    (∃ front back, (ofResources resources).pools = front ++ pool :: back ∧
      (∀ p ∈ front, name ∉ p.messageNames) ∧ place = front.length) ↔
    ∃ before resource, Resource.First resources name before resource ∧
      resource.pool = .ok pool ∧ place = (before.filter Resource.Good).length := by
  constructor
  · rintro ⟨front, back, hsplit, hfront, rfl⟩
    obtain ⟨left, right, rfl, hleft, hright⟩ := List.filterMap_eq_append_iff.mp hsplit
    obtain ⟨bad, resource, after, rfl, hbad, hpool, -⟩ := List.filterMap_eq_cons_iff.mp hright
    have hbefore : (ofResources (left ++ bad)).pools = front := by
      have hnone : (ofResources bad).pools = [] := List.filterMap_eq_nil_iff.mpr hbad
      rw [pools_append, hnone, List.append_nil]
      exact hleft
    rw [Resource.toOption_pool] at hpool
    refine ⟨left ++ bad, resource, ⟨⟨after, by simp⟩, fun r hr hdeclares => ?_, ?_⟩, hpool, ?_⟩
    · obtain ⟨p, hp, hname⟩ := Resource.declares_iff.mp hdeclares
      exact hfront p (hbefore ▸ mem_pools.mpr ⟨r, hr, hp⟩) hname
    · exact Resource.declares_iff.mpr ⟨pool, hpool, hmem⟩
    · rw [← hbefore, length_pools]
  · rintro ⟨before, resource, ⟨⟨after, rfl⟩, hfresh, -⟩, hpool, rfl⟩
    refine ⟨(ofResources before).pools, (ofResources after).pools, ?_, fun p hp hname => ?_, ?_⟩
    · have hcons : (ofResources (resource :: after)).pools = pool :: (ofResources after).pools := by
        rw [ofResources, List.filterMap_cons, Resource.toOption_pool.mpr hpool]
        rfl
      rw [pools_append, hcons]
    · obtain ⟨r, hr, hp⟩ := mem_pools.mp hp
      exact hfresh r hr (Resource.declares_iff.mpr ⟨p, hp, hname⟩)
    · rw [length_pools]

/-- **A name without a dot in front** stands for the message of that full name in the pool of the
first resource that declares it. -/
theorem find_eq_ok_iff_first (hname : Schema.trimName name = name) :
    (ofResources resources).find name = .ok entry ↔ ∃ before resource units,
      Resource.First resources name before resource ∧ resource.Loads units entry.schema.pool ∧
        entry.schema.fullName = name ∧ entry.pool = (before.filter Resource.Good).length := by
  have hfirst : entry.schema.fullName = name → ((∃ front back,
      (ofResources resources).pools = front ++ entry.schema.pool :: back ∧
        (∀ p ∈ front, name ∉ p.messageNames) ∧ entry.pool = front.length) ↔
      ∃ before resource, Resource.First resources name before resource ∧
        resource.pool = .ok entry.schema.pool ∧
          entry.pool = (before.filter Resource.Good).length) := by
    rintro rfl
    exact first_pool_iff entry.schema.fullName_mem
  rw [find_eq_ok_iff built_of_mem_pools rfl hname]
  constructor
  · rintro ⟨front, back, hsplit, hfront, hfull, hlength⟩
    obtain ⟨before, resource, hbefore, hpool, hplace⟩ :=
      (hfirst hfull).mp ⟨front, back, hsplit, hfront, hlength⟩
    obtain ⟨units, hloads⟩ := Resource.pool_eq_ok.mp hpool
    exact ⟨before, resource, units, hbefore, hloads, hfull, hplace⟩
  · rintro ⟨before, resource, units, hbefore, hloads, hfull, hplace⟩
    obtain ⟨front, back, hsplit, hfront, hlength⟩ := (hfirst hfull).mpr
      ⟨before, resource, hbefore, Resource.pool_eq_ok.mpr ⟨units, hloads⟩, hplace⟩
    exact ⟨front, back, hsplit, hfront, hfull, hlength⟩

/-- It stands for nothing if no resource declares it. -/
theorem find_eq_error_iff (hname : Schema.trimName name = name) :
    (ofResources resources).find name = .error (.schemaNotFound name) ↔
      ∀ resource ∈ resources, ¬ resource.Declares name := by
  constructor
  · intro herror resource hresource hdeclares
    obtain ⟨pool, hpool, hmem⟩ := Resource.declares_iff.mp hdeclares
    obtain ⟨entry, hfound⟩ := exists_find built_of_mem_pools rfl hname
      (mem_pools.mpr ⟨resource, hresource, hpool⟩) hmem
    rw [herror] at hfound
    cases hfound
  · intro hnone
    cases hfind : (ofResources resources).find name with
    | error e => rw [find_eq_error hfind, hname]
    | ok entry =>
      obtain ⟨before, resource, units, hfirst, -⟩ := (find_eq_ok_iff_first hname).mp hfind
      obtain ⟨after, hsplit⟩ := hfirst.split
      exact absurd hfirst.declares (hnone resource (by simp [hsplit]))

/-- A schema that is found has a payload. -/
theorem exists_encoded (h : (ofResources resources).find name = .ok entry) :
    ∃ e, (ofResources resources).encoded level name = .ok e := by
  obtain ⟨raw, hraw⟩ := Payload.exists_body (reachable_of_find h).built
  have hencode : Payload.encode level entry.schema = .ok (Gzip.compress raw level) := by
    rw [Payload.encode, hraw]
    rfl
  refine ⟨⟨Gzip.compress raw level, .of (Gzip.compress raw level)⟩, ?_⟩
  rw [encoded, h, ok_bind, hencode]
  rfl

/-- Lookups read the pools of a catalog alone. -/
theorem answer_congr (h : (ofResources others).pools = (ofResources resources).pools) :
    (ofResources others).answer level = (ofResources resources).answer level := by
  have hfind : (ofResources others).find = (ofResources resources).find := by
    funext n
    have htypes : (ofResources others).types = (ofResources resources).types :=
      congrArg (declaredTypes 0) h
    rw [find, find, htypes, h]
  funext call
  cases call with
  | typeNames =>
    have htypes : (ofResources others).types = (ofResources resources).types :=
      congrArg (declaredTypes 0) h
    rw [answer, answer, typeNames, typeNames, htypes]
  | find n => rw [answer, answer, hfind]
  | encoded n => rw [answer, answer, encoded, encoded, hfind]
  | column n family qualifier => rw [answer, answer, encoded, encoded, hfind]
  | forget => rfl

/-- **The first declaration of a name wins**, and bad resources leave no trace.  For every list of
resources: the names of a catalog are the messages that good resources declare, in order and each
once; a name without a dot in front stands for the message of that full name in the pool of the
first good resource that declares it, and for nothing if there is none; what is found can be
encoded; and all lookups in any order, through memos that may lose what they keep, get the answers
of the catalog, which are the same for all lists with the same good resources. -/
theorem first_declaration_wins (resources : List Resource) (level : Nat) :
    (Scalar.Ascending (ofResources resources).typeNames ∧ ∀ name,
      name ∈ (ofResources resources).typeNames ↔
        ∃ resource ∈ resources, resource.Declares name) ∧
    (∀ name, (∀ rest, name.toList ≠ '.' :: rest) →
      (∀ entry, (ofResources resources).find name = .ok entry ↔ ∃ before resource units,
        Resource.First resources name before resource ∧
          resource.Loads units entry.schema.pool ∧ entry.schema.fullName = name ∧
            entry.pool = (before.filter Resource.Good).length) ∧
      ((ofResources resources).find name = .error (.schemaNotFound name) ↔
        ∀ resource ∈ resources, ¬ resource.Declares name)) ∧
    (∀ name entry, (ofResources resources).find name = .ok entry →
      ∃ e, (ofResources resources).encoded level name = .ok e) ∧
    (∀ calls, ((MemoRegistry.performAll calls).run (.ofResources resources level)).1 =
      calls.map ((ofResources resources).answer level)) ∧
    ∀ others : List Resource, others.filter Resource.Good = resources.filter Resource.Good →
      ∀ calls, ((MemoRegistry.performAll calls).run (.ofResources others level)).1 =
        ((MemoRegistry.performAll calls).run (.ofResources resources level)).1 := by
  refine ⟨⟨Scalar.ascending_distinct _, fun name => mem_typeNames⟩, fun name hdot => ?_,
    fun name entry => exists_encoded, MemoRegistry.run_performAll resources level, ?_⟩
  · have hname := Schema.trimName_eq hdot
    exact ⟨fun entry => find_eq_ok_iff_first hname, find_eq_error_iff hname⟩
  · intro others hgood calls
    have hpools : (ofResources others).pools = (ofResources resources).pools := by
      rw [← pools_filter others, hgood, pools_filter]
    rw [MemoRegistry.run_performAll, MemoRegistry.run_performAll, answer_congr hpools]

/-! ### A resource that fails on its second unit, in front of two that declare the same message -/

/-- The second unit has an import that is missing. -/
def halfResource : Resource where
  name := "half.desc"
  bytes := [Schema.baseUnit, Schema.topUnit ["base.proto", "missing.proto"]].flatMap fun u =>
    0x0A :: Frame.putBytes u.encode

/-- A resource with the first unit alone. -/
def baseResource : Resource where
  name := "base.desc"
  bytes := 0x0A :: Frame.putBytes Schema.baseUnit.encode

/-- Of three resources the first one is bad, and the others declare the same message. -/
def mixedResources : List Resource := [halfResource, PredicateGroup.topResource, baseResource]

theorem not_good_halfResource : ¬ halfResource.Good := by
  decide +kernel

/-- The message is found in the pool of the resource behind the bad one, at the first place. -/
theorem first_declaration_wins_mixedResources : ∃ entry,
    (ofResources mixedResources).find "demo.Base" = .ok entry ∧
      entry.schema.pool = Schema.topPool ["base.proto"] ∧ entry.pool = 0 ∧
    (ofResources mixedResources).find "demo.None" = .error (.schemaNotFound "demo.None") ∧
    ∀ calls, ((MemoRegistry.performAll calls).run (.ofResources mixedResources.tail 0)).1 =
      ((MemoRegistry.performAll calls).run (.ofResources mixedResources 0)).1 := by
  have htop : PredicateGroup.topResource.pool = .ok (Schema.topPool ["base.proto"]) :=
    PredicateGroup.pool_topResource
  have hbase : baseResource.pool = .ok Schema.basePool := by with_unfolding_all rfl
  have hbad := Resource.not_declares not_good_halfResource
  have hgood : mixedResources.tail.filter Resource.Good = mixedResources.filter Resource.Good := by
    rw [mixedResources, List.filter_cons_of_neg (by simpa using not_good_halfResource)]
    rfl
  have hdot : ∀ name : String, name.toList.head? = some 'd' →
      ∀ rest, name.toList ≠ '.' :: rest := by
    intro name hhead rest heq
    rw [heq] at hhead
    cases hhead
  obtain ⟨-, hfind, -, -, hsame⟩ := first_declaration_wins mixedResources 0
  obtain ⟨units, hloads⟩ := Resource.pool_eq_ok.mp htop
  refine ⟨⟨0, ⟨Schema.topPool ["base.proto"], 0, Nat.two_pos⟩⟩, ?_, rfl, rfl, ?_, hsame _ hgood⟩
  · refine ((hfind "demo.Base" (hdot _ (by rfl))).1 _).mpr ⟨[halfResource],
      PredicateGroup.topResource, units, ⟨⟨[baseResource], rfl⟩, ?_, ?_⟩, hloads, rfl, ?_⟩
    · exact List.forall_mem_singleton.mpr (hbad _)
    · exact Resource.declares_iff.mpr ⟨_, htop, List.mem_cons_self⟩
    · rw [List.filter_cons_of_neg (by simpa using not_good_halfResource)]
      rfl
  · refine (hfind "demo.None" (hdot _ (by rfl))).2.mpr ?_
    have hmissing : ∀ {resource : Resource} {pool : SchemaPool}, resource.pool = .ok pool →
        "demo.None" ∉ pool.messageNames → ¬ resource.Declares "demo.None" := by
      intro resource pool hpool hmem hdeclares
      obtain ⟨other, hother, hname⟩ := Resource.declares_iff.mp hdeclares
      cases hpool.symm.trans hother
      exact hmem hname
    simp only [mixedResources, List.forall_mem_cons]
    exact ⟨hbad _, hmissing htop (by decide), hmissing hbase (by decide), by simp⟩

end Catalog

end CellFilter
