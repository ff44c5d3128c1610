import CellFilter.Catalog.Registry
import CellFilter.Proofs.Filter.Bundling
import CellFilter.Proofs.Gzip.Lossless
import CellFilter.Proofs.Predicate.RoundTrip
import CellFilter.Proofs.Schema.Pool
import Mathlib.Data.List.DropRight

/-!
# Predicates that a registry begins

Whatever a registry was asked before, it answers from the catalog of its resources.  A predicate
begun by it carries the payload that the catalog has for the name in its key.

* `Catalog.reachable_of_find`: schemas of a catalog lie in pools that were built unit by unit.
* `SchemaRegistry.Serves`: a registry over some resources, asked before or not.
* `SchemaRegistry.Builds`: predicates made from what a registry begins.
* `Builds.carries`, `Builds.exists_entry`: their payloads and schemas.
-/

namespace CellFilter

open Outcome

/-! ## Catalogs -/

theorem SchemaPool.Reachable.addFiles {units : List FileDescriptor} :
    ∀ {pool next : SchemaPool}, pool.Reachable → pool.addFiles units = .ok next →
      next.Reachable := by
  induction units with
  | nil =>
    intro pool next h hadd
    cases hadd
    exact h
  | cons unit units ih =>
    intro pool next h hadd
    rw [SchemaPool.addFiles, List.foldlM_cons] at hadd
    obtain ⟨middle, hfirst, hrest⟩ := bind_eq_ok.mp hadd
    exact ih (.add h hfirst) hrest

theorem Resource.reachable_pool {resource : Resource} {pool : SchemaPool}
    (h : resource.pool = .ok pool) : pool.Reachable := by
  unfold Resource.pool at h
  obtain ⟨units, -, h⟩ := bind_eq_ok.mp h
  obtain ⟨order, -, h⟩ := bind_eq_ok.mp h
  exact SchemaPool.Reachable.empty.addFiles h

namespace Schema

theorem trimName_trimName (name : String) : trimName (trimName name) = trimName name := by
  unfold trimName
  rw [String.toList_ofList, List.dropWhile_idempotent]

theorem ofPool?_pool {pool : SchemaPool} {name : String} {s : Schema}
    (h : ofPool? pool name = some s) : s.pool = pool := by
  unfold ofPool? at h
  split at h
  · unfold ofIndex? at h
    split_ifs at h
    cases h
    rfl
  · cases h

end Schema

namespace Catalog

variable {resources : List Resource} {level : Nat} {name : String} {entry : CatalogEntry}

theorem find_trimName (catalog : Catalog) (name : String) :
    catalog.find (Schema.trimName name) = catalog.find name := by
  rw [find, find, Schema.trimName_trimName]

/-- All that asking for a schema can come to. -/
theorem find_eq_ok {catalog : Catalog} : catalog.find name = .ok entry ↔ ∃ pool,
    catalog.types.lookup (Schema.trimName name) = some entry.pool ∧
      catalog.pools[entry.pool]? = some pool ∧
        Schema.ofPool? pool (Schema.trimName name) = some entry.schema := by
  constructor
  · intro h
    unfold find at h
    cases hplace : catalog.types.lookup (Schema.trimName name) with
    | none => simp [hplace] at h
    | some place =>
      cases hpool : catalog.pools[place]? with
      | none => simp [hplace, hpool] at h
      | some pool =>
        cases hs : Schema.ofPool? pool (Schema.trimName name) with
        | none => simp [hplace, hpool, hs] at h
        | some s =>
          obtain rfl : (⟨place, s⟩ : CatalogEntry) = entry := by simpa [hplace, hpool, hs] using h
          exact ⟨pool, rfl, hpool, hs⟩
  · rintro ⟨pool, hplace, hpool, hs⟩
    unfold find
    simp [hplace, hpool, hs]

theorem find_eq_error {catalog : Catalog} {e : FilterError} (h : catalog.find name = .error e) :
    e = .schemaNotFound (Schema.trimName name) := by
  unfold find at h
  dsimp only at h
  split at h
  · cases h
  · exact (Except.error.inj h).symm

theorem mem_pools_of_find {catalog : Catalog} (h : catalog.find name = .ok entry) :
    entry.schema.pool ∈ catalog.pools := by
  obtain ⟨pool, -, hpool, hs⟩ := find_eq_ok.mp h
  rw [Schema.ofPool?_pool hs]
  exact List.mem_of_getElem? hpool

/-- A schema that is found lies in a pool that was built unit by unit. -/
theorem reachable_of_find (h : (ofResources resources).find name = .ok entry) :
    entry.schema.pool.Reachable := by
  obtain ⟨resource, -, hpool⟩ := List.mem_filterMap.mp (mem_pools_of_find h)
  cases hresource : resource.pool with
  | error fault => rw [hresource] at hpool; cases hpool
  | ok pool =>
    rw [hresource] at hpool
    cases hpool
    exact Resource.reachable_pool hresource

/-- The schemas of a catalog by their names. -/
def schemaOf (catalog : Catalog) (name : String) : Except FilterError Schema :=
  (catalog.find name).map CatalogEntry.schema

/-- The payload of a name, without bytes if there is none. -/
def payloadOf (catalog : Catalog) (level : Nat) (name : String) : Bytes :=
  ((catalog.encoded level name).toOption.map EncodedSchema.payload).getD []

theorem exists_of_encoded {catalog : Catalog} {e : EncodedSchema}
    (h : catalog.encoded level name = .ok e) : ∃ entry, catalog.find name = .ok entry ∧
      Payload.encode level entry.schema = .ok e.payload := by
  obtain ⟨entry, hfind, h⟩ := bind_eq_ok.mp h
  obtain ⟨payload, hpayload, h⟩ := bind_eq_ok.mp h
  cases h
  exact ⟨entry, hfind, hpayload⟩

theorem encoded_trimName (catalog : Catalog) (level : Nat) (name : String) :
    catalog.encoded level (Schema.trimName name) = catalog.encoded level name := by
  rw [encoded, encoded, find_trimName]

end Catalog

theorem Payload.encode_ne_nil {level : Nat} {s : Schema} {payload : Bytes}
    (h : encode level s = .ok payload) : payload ≠ [] := by
  obtain ⟨bytes, -, h⟩ := bind_eq_ok.mp h
  cases h
  intro hempty
  have hlossless := Gzip.decompress_compress bytes level
  rw [hempty] at hlossless
  cases hlossless

/-! ## Registries -/

namespace SchemaRegistry

variable {resources : List Resource} {level : Nat} {registry : SchemaRegistry} {p : ColumnPredicate}

/-- A registry over some resources, whether it was asked before or not. -/
structure Serves (resources : List Resource) (level : Nat) (registry : SchemaRegistry) : Prop where
  sources : registry.resources = resources
  level : registry.level = level
  loaded : ∀ c ∈ registry.catalog?, c = .ofResources resources

theorem serves_ofResources (resources : List Resource) (level : Nat) :
    (ofResources resources level).Serves resources level := by
  refine ⟨rfl, rfl, ?_⟩
  intro c hc
  cases hc

theorem Serves.run_catalog (h : registry.Serves resources level) : ∃ left,
    catalog.run registry = (.ofResources resources, left) ∧ left.Serves resources level := by
  obtain ⟨rs, l, catalog?⟩ := registry
  obtain ⟨rfl, rfl, hloaded⟩ := h
  cases catalog? with
  | none =>
    refine ⟨_, rfl, rfl, rfl, ?_⟩
    rintro c hc
    cases hc
    rfl
  | some c =>
    have hc := hloaded c rfl
    refine ⟨_, ?_, rfl, rfl, hloaded⟩
    rw [← hc]
    rfl

/-- A registry begins predicates with the payloads of its catalog, and goes on serving. -/
theorem Serves.run_column (h : registry.Serves resources level) (name : String)
    (family qualifier : Bytes) : ∃ left, (column name family qualifier).run registry =
      (((Catalog.ofResources resources).encoded level name).map fun e =>
        { family, qualifier, key := ⟨Schema.trimName name, e.hash⟩, payload? := some e.payload },
        left) ∧ left.Serves resources level := by
  obtain ⟨left, hcatalog, hleft⟩ := h.run_catalog
  refine ⟨left, ?_, hleft⟩
  rw [← hleft.level]
  show (let found := catalog.run registry
    (Except.map _ (found.1.encoded found.2.level name), found.2)) = _
  rw [hcatalog]

end SchemaRegistry

/-- The predicates that a target can end in, their comparators being built-in ones. -/
inductive ColumnTarget.Ends (target : ColumnTarget) : ColumnPredicate → Prop
  | fieldCompare (path : String) (op : CompareOp) (value : Scalar) :
      Ends target (target.fieldCompare path op value)
  | fieldByteComparable (path : String) {comparator : Comparator} (op : CompareOp) :
      comparator.Standard → Ends target (target.fieldByteComparable path comparator op)
  | messageMatch (op : MatchOp) (encoded : Bytes) : Ends target (target.messageMatch op encoded)

namespace ColumnTarget.Ends

variable {target : ColumnTarget} {p : ColumnPredicate}

theorem key_eq (h : target.Ends p) : p.key = target.key := by
  cases h <;> rfl

theorem payload_eq (h : target.Ends p) : p.payload? = target.payload? := by
  cases h <;> rfl

theorem standard (h : target.Ends p) : ∀ c ∈ p.comparator?, c.Standard := by
  intro c hc
  cases h with
  | fieldCompare => cases hc
  | fieldByteComparable path op hstandard =>
    cases hc
    exact hstandard
  | messageMatch => cases hc

end ColumnTarget.Ends

namespace SchemaRegistry

variable {resources : List Resource} {level : Nat} {p : ColumnPredicate}

/-- The predicates that are made from what a registry over some resources begins. -/
inductive Builds (resources : List Resource) (level : Nat) : ColumnPredicate → Prop
  | column {registry : SchemaRegistry} {name : String} {family qualifier : Bytes}
      {target : ColumnTarget} {p : ColumnPredicate} (filterIfMissing latestVersionOnly : Bool) :
      registry.Serves resources level →
      ((column name family qualifier).run registry).1 = .ok target →
      { target with filterIfMissing, latestVersionOnly }.Ends p → Builds resources level p

/-- What the catalog has for the name in the key of such a predicate. -/
theorem Builds.exists_encoded (h : Builds resources level p) : ∃ e,
    (Catalog.ofResources resources).encoded level p.key.name = .ok e ∧
      p.payload? = some e.payload ∧ ∀ c ∈ p.comparator?, c.Standard := by
  obtain ⟨filterIfMissing, latestVersionOnly, hserves, hcolumn, hends⟩ := h
  rename_i registry name family qualifier target
  obtain ⟨left, hrun, -⟩ := hserves.run_column name family qualifier
  rw [hrun] at hcolumn
  obtain ⟨e, he, rfl⟩ := map_eq_ok.mp hcolumn
  refine ⟨e, ?_, hends.payload_eq, hends.standard⟩
  rw [hends.key_eq]
  exact (Catalog.encoded_trimName _ level name).trans he

theorem Builds.exists_entry (h : Builds resources level p) : ∃ entry,
    (Catalog.ofResources resources).find p.key.name = .ok entry ∧ Payload.encode level entry.schema =
      .ok ((Catalog.ofResources resources).payloadOf level p.key.name) := by
  obtain ⟨e, he, -, -⟩ := h.exists_encoded
  obtain ⟨entry, hfind, hencode⟩ := Catalog.exists_of_encoded he
  refine ⟨entry, hfind, ?_⟩
  rw [hencode, Catalog.payloadOf, he]
  rfl

/-- Such predicates carry the payloads of the catalog. -/
theorem Builds.carries (h : Builds resources level p) :
    p.Carries ((Catalog.ofResources resources).payloadOf level) := by
  obtain ⟨entry, -, hencode⟩ := h.exists_entry
  refine ⟨?_, Payload.encode_ne_nil hencode⟩
  obtain ⟨e, he, hpayload, -⟩ := h.exists_encoded
  rw [hpayload, Catalog.payloadOf, he]
  rfl

end SchemaRegistry

end CellFilter
