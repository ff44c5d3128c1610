import CellFilter.Payload.Order
import CellFilter.Proofs.Payload.Walk
import CellFilter.Proofs.Schema.Pool

/-!
# The imports of a unit

Inside a built pool the names of units are unique and every unit stands behind the units that it
depends on.

* `SchemaPool.Imports`: one unit depends directly on another.
* `SchemaPool.Shallow`: how far the imports of a unit go.
* `Built.closure_eq`: the closure of a unit is the list of all units that it rests on, itself
  included, each once.
-/

namespace CellFilter.SchemaPool

open Outcome Relation

variable {pool : SchemaPool} {unit other : FileDescriptor} {name : String}

/-- A unit of the pool depends directly on another one. -/
def Imports (pool : SchemaPool) (unit other : FileDescriptor) : Prop :=
  unit ∈ pool.files ∧ other ∈ pool.files ∧ other.name ∈ unit.dependencies

theorem Imports.mem_of_reaches (h : ReflTransGen pool.Imports unit other)
    (hu : unit ∈ pool.files) : other ∈ pool.files := by
  induction h with
  | refl => exact hu
  | tail _ hstep _ => exact hstep.2.1

theorem Built.eq_of_name (h : pool.Built) (hu : unit ∈ pool.files) (ho : other ∈ pool.files)
    (hname : unit.name = other.name) : unit = other :=
  List.inj_on_of_nodup_map h.unitNames hu ho hname

theorem Built.file?_eq_some (h : pool.Built) :
    pool.file? name = some unit ↔ unit ∈ pool.files ∧ unit.name = name := by
  constructor
  · intro hf
    exact ⟨List.mem_of_find?_eq_some hf, by simpa using List.find?_some hf⟩
  · rintro ⟨hu, rfl⟩
    cases hf : pool.file? unit.name with
    | none => exact absurd (List.mem_map_of_mem hu) (file?_eq_none.mp hf)
    | some found =>
      have hname : found.name = unit.name := by simpa using List.find?_some hf
      rw [h.eq_of_name (List.mem_of_find?_eq_some hf) hu hname]

theorem Built.dependenciesOf_eq (h : pool.Built) (hu : unit ∈ pool.files) :
    pool.dependenciesOf unit.name = unit.dependencies := by
  rw [dependenciesOf, h.file?_eq_some.mpr ⟨hu, rfl⟩]
  rfl

theorem Built.exists_dependency (h : pool.Built) (hu : unit ∈ pool.files)
    (hd : name ∈ unit.dependencies) : ∃ other, pool.Imports unit other ∧ other.name = name := by
  obtain ⟨k, hk, hget⟩ := List.getElem_of_mem hu
  obtain ⟨j, hj, other, hother, rfl⟩ := h.imports k unit
    (by rw [List.getElem?_eq_getElem hk, hget]) name hd
  exact ⟨other, ⟨hu, List.mem_of_getElem? hother, hd⟩, rfl⟩

/-! ## Places -/

/-- The place of a unit, given by name. -/
def place (pool : SchemaPool) (name : String) : Nat :=
  (pool.files.map FileDescriptor.name).idxOf name

theorem Built.place_eq (h : pool.Built) {k : Nat} (hk : pool.files[k]? = some unit) :
    pool.place unit.name = k := by
  obtain ⟨hlt, hget⟩ := List.getElem?_eq_some_iff.mp hk
  have hlt' : k < (pool.files.map FileDescriptor.name).length := by simpa using hlt
  have hname : (pool.files.map FileDescriptor.name).get ⟨k, hlt'⟩ = unit.name := by
    rw [List.get_eq_getElem, List.getElem_map, hget]
  rw [place, ← hname]
  exact h.unitNames.idxOf_getElem k hlt'

theorem Built.place_lt (h : pool.Built) (hi : pool.Imports unit other) :
    pool.place other.name < pool.place unit.name := by
  obtain ⟨hu, -, hd⟩ := hi
  obtain ⟨k, hk, hget⟩ := List.getElem_of_mem hu
  have hplace : pool.files[k]? = some unit := by rw [List.getElem?_eq_getElem hk, hget]
  obtain ⟨j, hj, dependency, hdep, hname⟩ := h.imports k unit hplace _ hd
  rw [h.place_eq hplace, ← hname, h.place_eq hdep]
  exact hj

theorem Built.place_le (h : pool.Built) (hr : ReflTransGen pool.Imports unit other) :
    pool.place other.name ≤ pool.place unit.name := by
  induction hr with
  | refl => exact le_rfl
  | tail _ hstep ih => exact le_trans (h.place_lt hstep).le ih

/-- No chain of imports from a unit takes more than so many steps. -/
def Shallow (pool : SchemaPool) (steps : Nat) (unit : FileDescriptor) : Prop :=
  ∀ chain, List.IsChain pool.Imports (unit :: chain) → chain.length ≤ steps

theorem Shallow.step {steps : Nat} (h : pool.Shallow steps unit) (hi : pool.Imports unit other) :
    ∃ fewer, steps = fewer + 1 ∧ pool.Shallow fewer other := by
  have hone : 1 ≤ steps := h [other] (.cons_cons hi (.singleton other))
  refine ⟨steps - 1, by omega, fun chain hchain => ?_⟩
  have hlonger := h (other :: chain) (.cons_cons hi hchain)
  rw [List.length_cons] at hlonger
  omega

/-- Imports go no further than there are units in front. -/
theorem Built.shallow (h : pool.Built) (unit : FileDescriptor) :
    pool.Shallow (pool.place unit.name) unit := by
  intro chain hchain
  induction chain generalizing unit with
  | nil => exact Nat.zero_le _
  | cons other chain ih =>
    obtain ⟨hi, hrest⟩ := List.isChain_cons_cons.mp hchain
    have hless := h.place_lt hi
    have hlength := ih other hrest
    rw [List.length_cons]
    omega

/-- What a unit rests on stands among the units up to it. -/
theorem Built.mem_take_of_reaches (h : pool.Built) {k : Nat} (hk : pool.files[k]? = some unit)
    (hr : ReflTransGen pool.Imports unit other) : other ∈ pool.files.take (k + 1) := by
  have hmem := Imports.mem_of_reaches hr (List.mem_of_getElem? hk)
  obtain ⟨i, hi, hget⟩ := List.getElem_of_mem hmem
  have hplace := h.place_le hr
  rw [h.place_eq hk, h.place_eq (List.getElem?_eq_some_iff.mpr ⟨hi, hget⟩)] at hplace
  exact List.mem_take_iff_getElem.mpr ⟨i, by omega, hget⟩

/-! ## The closure -/

theorem Built.leads_iff (h : pool.Built) (hu : unit ∈ pool.files) :
    ReflTransGen (Walk.Leads pool.dependenciesOf) unit.name name ↔
      ∃ other, ReflTransGen pool.Imports unit other ∧ other.name = name := by
  constructor
  · intro hr
    induction hr with
    | refl => exact ⟨unit, .refl, rfl⟩
    | tail _ hstep ih =>
      obtain ⟨middle, hm, rfl⟩ := ih
      have hmem := Imports.mem_of_reaches hm hu
      rw [Walk.Leads, h.dependenciesOf_eq hmem] at hstep
      obtain ⟨other, hi, rfl⟩ := h.exists_dependency hmem hstep
      exact ⟨other, hm.tail hi, rfl⟩
  · rintro ⟨other, hr, rfl⟩
    induction hr with
    | refl => exact .refl
    | tail _ hstep ih =>
      refine ih.tail ?_
      rw [Walk.Leads, h.dependenciesOf_eq hstep.1]
      exact hstep.2.2

/-- Units looked up by name have the names they were looked up by. -/
theorem Built.mapM_file? (h : pool.Built) {find : String → Except FilterError FileDescriptor}
    (hfind : ∀ n u, find n = .ok u → pool.file? n = some u) {names : List String}
    {units : List FileDescriptor} (hm : names.mapM find = .ok units) :
    units.map FileDescriptor.name = names ∧ ∀ u ∈ units, u ∈ pool.files := by
  have heach := mapM_eq_ok_iff.mp hm
  clear hm
  induction heach with
  | nil => exact ⟨rfl, by simp⟩
  | cons hn _ ih =>
    obtain ⟨hmem, hname⟩ := h.file?_eq_some.mp (hfind _ _ hn)
    exact ⟨by rw [List.map_cons, hname, ih.1], by simpa using ⟨hmem, ih.2⟩⟩

/-- **The closure of a unit** is what it rests on. -/
theorem Built.closure_eq (h : pool.Built) (hu : unit ∈ pool.files) :
    ∃ units, pool.closure unit.name = .ok units ∧ (units.map FileDescriptor.name).Nodup ∧
      ∀ other, other ∈ units ↔ ReflTransGen pool.Imports unit other := by
  have hstep : ∀ a ∈ pool.files.map FileDescriptor.name, ∀ b ∈ pool.dependenciesOf a,
      b ∈ pool.files.map FileDescriptor.name := by
    intro a ha b hb
    obtain ⟨u, hu, rfl⟩ := List.mem_map.mp ha
    rw [h.dependenciesOf_eq hu] at hb
    obtain ⟨other, hi, rfl⟩ := h.exists_dependency hu hb
    exact List.mem_map_of_mem hi.2.1
  have hstart : ∀ a ∈ [unit.name], a ∈ pool.files.map FileDescriptor.name := by
    intro a ha
    rw [List.mem_singleton.mp ha]
    exact List.mem_map_of_mem hu
  have hdepth : (pool.files.map FileDescriptor.name).length ≤ pool.files.length + 1 := by simp
  obtain ⟨hnodup, hmem⟩ := Walk.ofStarts_discovered hstep hstart hdepth
  have hfound : ∀ n ∈ (Walk.ofStarts pool.dependenciesOf (pool.files.length + 1)
      [unit.name]).discovered, ∃ other, ReflTransGen pool.Imports unit other ∧ other.name = n := by
    intro n hn
    obtain ⟨a, ha, hr⟩ := (hmem n).mp hn
    rw [List.mem_singleton.mp ha] at hr
    exact (h.leads_iff hu).mp hr
  obtain ⟨units, hunits⟩ : ∃ units, pool.closure unit.name = .ok units := by
    refine exists_mapM_eq_ok fun n hn => ?_
    obtain ⟨other, hr, hname⟩ := hfound n (List.mem_reverse.mp hn)
    exact ⟨other, by rw [h.file?_eq_some.mpr ⟨Imports.mem_of_reaches hr hu, hname⟩]⟩
  obtain ⟨hnames, hfiles⟩ := h.mapM_file? (fun n found hn => by
    cases hf : pool.file? n with
    | none => rw [hf] at hn; cases hn
    | some u => rw [hf] at hn; cases hn; rfl) hunits
  refine ⟨units, hunits, by rw [hnames]; exact List.nodup_reverse.mpr hnodup, fun other => ?_⟩
  constructor
  · intro ho
    have hn : other.name ∈ units.map FileDescriptor.name := List.mem_map_of_mem ho
    rw [hnames, List.mem_reverse] at hn
    obtain ⟨reached, hr, hname⟩ := hfound _ hn
    rw [← h.eq_of_name (Imports.mem_of_reaches hr hu) (hfiles other ho) hname]
    exact hr
  · intro hr
    have hn : other.name ∈ units.map FileDescriptor.name := by
      rw [hnames, List.mem_reverse, hmem]
      exact ⟨unit.name, List.mem_singleton_self _, (h.leads_iff hu).mpr ⟨other, hr, rfl⟩⟩
    obtain ⟨found, hfound, hname⟩ := List.mem_map.mp hn
    rw [← h.eq_of_name (hfiles found hfound) (Imports.mem_of_reaches hr hu) hname]
    exact hfound

end CellFilter.SchemaPool
