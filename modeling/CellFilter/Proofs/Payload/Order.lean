import CellFilter.Proofs.Outcome
import CellFilter.Proofs.Schema.Imports

/-!
# Units in the order of their imports

The walk from every unit to the units that depend on it finishes them in an order in which each unit
comes after what it depends on, unless units depend on each other in a circle.

* `firstMisplaced_eq_some`, `before_of_firstMisplaced`: names that do not stand after their
  dependencies.
* `ofEdges_eq_error`: a name that is reported lies on a circle.
* `dependencyOrder_eq_ok`: without circles the order exists.
* `mem_dependencyOrder`: an order holds the first unit of every name.
* `Built.order_eq_ok`: the closure of a unit of a built pool has an order.
-/

namespace CellFilter

open Outcome Relation

namespace UnitOrder

variable {units : List FileDescriptor} {unit other : FileDescriptor} {a b : String}

theorem names_concat (units : List FileDescriptor) (unit : FileDescriptor) :
    names (units ++ [unit]) = if unit.name ∈ names units then names units
      else names units ++ [unit.name] := by
  rw [names, List.map_append, List.foldl_append, ← names]
  show (if (names units).contains unit.name then _ else _) = _
  simp only [List.contains_iff_mem]

/-- Every name of a unit is there once. -/
theorem names_spec (units : List FileDescriptor) : (names units).Nodup ∧
    ∀ name, name ∈ names units ↔ name ∈ units.map FileDescriptor.name := by
  induction units using List.reverseRecOn with
  | nil => simp [names]
  | append_singleton units unit ih =>
    obtain ⟨hnodup, hmem⟩ := ih
    rw [names_concat]
    by_cases hknown : unit.name ∈ names units
    · rw [if_pos hknown]
      refine ⟨hnodup, fun name => ?_⟩
      rw [hmem, List.map_append, List.mem_append, List.map_singleton, List.mem_singleton]
      refine ⟨Or.inl, fun h => h.elim id ?_⟩
      rintro rfl
      exact (hmem _).mp hknown
    · rw [if_neg hknown]
      refine ⟨?_, fun name => ?_⟩
      · rw [List.nodup_append']
        exact ⟨hnodup, List.nodup_singleton _, by simpa using hknown⟩
      · rw [List.mem_append, hmem, List.map_append, List.mem_append, List.map_singleton]

theorem mem_edges : (a, b) ∈ edges units ↔ ∃ unit ∈ units, unit.name = b ∧
    a ∈ unit.dependencies ∧ a ∈ units.map FileDescriptor.name := by
  rw [edges, ← (names_spec units).2]
  simp only [List.mem_flatMap, List.mem_map, List.mem_filter, Prod.mk.injEq]
  constructor
  · rintro ⟨unit, hu, d, ⟨hd, hlisted⟩, rfl, rfl⟩
    exact ⟨unit, hu, rfl, hd, by simpa using hlisted⟩
  · rintro ⟨unit, hu, rfl, hd, hlisted⟩
    exact ⟨unit, hu, a, ⟨hd, by simpa using hlisted⟩, rfl, rfl⟩

theorem mem_dependents {es : List (String × String)} : b ∈ dependents es a ↔ (a, b) ∈ es := by
  simp only [dependents, List.mem_map, List.mem_filter, beq_iff_eq]
  constructor
  · rintro ⟨⟨x, y⟩, ⟨he, rfl⟩, rfl⟩
    exact he
  · intro he
    exact ⟨(a, b), ⟨he, rfl⟩, rfl⟩

/-- What depends on a listed unit is listed. -/
theorem mem_names_of_dependents (hb : b ∈ dependents (edges units) a) : b ∈ names units := by
  obtain ⟨unit, hu, rfl, -⟩ := mem_edges.mp (mem_dependents.mp hb)
  exact ((names_spec units).2 _).mpr (List.mem_map_of_mem hu)

theorem mem_dependencies {es : List (String × String)} : a ∈ dependencies es b ↔ (a, b) ∈ es := by
  simp only [dependencies, List.mem_map, List.mem_filter, beq_iff_eq]
  constructor
  · rintro ⟨⟨x, y⟩, ⟨he, rfl⟩, rfl⟩
    exact he
  · intro he
    exact ⟨(a, b), ⟨he, rfl⟩, rfl⟩

/-! ## Misplaced names -/

section

variable {es : List (String × String)} {d : String}

/-- A misplaced name is a dependency that does not stand before its dependent. -/
theorem firstMisplaced_eq_some : ∀ {l placed : List String}, firstMisplaced es placed l = some d →
    ∃ before name after, l = before ++ name :: after ∧ d ∈ dependencies es name ∧
      d ∉ before ∧ d ∉ placed
  | [], _, h => by cases h
  | n :: rest, placed, h => by
    rw [firstMisplaced] at h
    cases hfind : (dependencies es n).find? fun d => !placed.contains d with
    | some first =>
      rw [hfind] at h
      cases h
      have hnew : d ∉ placed := by simpa using List.find?_some hfind
      exact ⟨[], n, rest, rfl, List.mem_of_find?_eq_some hfind, List.not_mem_nil, hnew⟩
    | none =>
      rw [hfind] at h
      obtain ⟨before, name, after, rfl, hd, hbefore, hplaced⟩ := firstMisplaced_eq_some h
      rw [List.mem_cons, not_or] at hplaced
      refine ⟨n :: before, name, after, rfl, hd, ?_, hplaced.2⟩
      rw [List.mem_cons, not_or]
      exact ⟨hplaced.1, hbefore⟩

/-- If no name is misplaced, each comes after its dependencies. -/
theorem before_of_firstMisplaced : ∀ {l placed : List String}, firstMisplaced es placed l = none →
    ∀ {before : List String} {name : String} {after : List String}, l = before ++ name :: after →
      ∀ d ∈ dependencies es name, d ∈ before ∨ d ∈ placed
  | [], _, _, before, _, _, hsplit => by cases before <;> cases hsplit
  | n :: rest, placed, h, before, name, after, hsplit => by
    rw [firstMisplaced] at h
    cases hfind : (dependencies es n).find? fun d => !placed.contains d with
    | some first =>
      rw [hfind] at h
      cases h
    | none =>
      rw [hfind] at h
      intro d hd
      cases before with
      | nil =>
        cases hsplit
        exact Or.inr (by simpa using List.find?_eq_none.mp hfind d hd)
      | cons first before =>
        cases hsplit
        rcases before_of_firstMisplaced h rfl d hd with hd | hd
        · exact Or.inl (List.mem_cons_of_mem _ hd)
        · rcases List.mem_cons.mp hd with rfl | hd
          · exact Or.inl List.mem_cons_self
          · exact Or.inr hd

end

/-! ## The walk from every unit -/

/-- The walk from every unit to the units that depend on it. -/
def walk (units : List FileDescriptor) : Walk :=
  Walk.ofStarts (dependents (edges units)) (names units).length (names units)

/-- The walk finishes every name of a unit once, and after everything that depends on the unit
unless that leads back to it. -/
theorem walk_spec (units : List FileDescriptor) : (walk units).finished.Nodup ∧
    (∀ name, name ∈ (walk units).finished ↔ name ∈ units.map FileDescriptor.name) ∧
      Walk.Ranked (dependents (edges units)) (walk units).finished := by
  obtain ⟨-, hnames⟩ := names_spec units
  have hstep : ∀ a ∈ names units, ∀ b ∈ dependents (edges units) a, b ∈ names units :=
    fun _ _ _ => mem_names_of_dependents
  obtain ⟨hnodup, hmem⟩ := Walk.ofStarts_discovered hstep (fun a ha => ha) le_rfl
  have hperm := Walk.ofStarts_finished hstep (fun a ha => ha) le_rfl
  refine ⟨hperm.nodup_iff.mpr hnodup, fun name => ?_, Walk.ofStarts_ranked hstep (fun a ha => ha)
    le_rfl⟩
  rw [walk, hperm.mem_iff, hmem, ← hnames]
  constructor
  · rintro ⟨a, ha, hreach⟩
    exact hreach.rec ha fun _ hlead hb => hstep _ hb _ hlead
  · exact fun hname => ⟨name, hname, .refl⟩

/-- **An order** is the walk from its last name to its first. -/
theorem ofEdges_eq_ok {order : List String} (h : ofEdges (names units) (edges units) = .ok order) :
    order = (walk units).finished ∧ firstMisplaced (edges units) [] order = none := by
  simp only [ofEdges] at h
  split at h
  · cases h
  · split at h
    · cases h
    · rename_i hplaced
      obtain rfl := Except.ok.inj h
      exact ⟨rfl, hplaced⟩

/-- **A name that is reported** lies on a circle: what is misplaced behind its dependent leads to
it, since the dependent was still open when the walk finished it. -/
theorem ofEdges_eq_error {name : String}
    (h : ofEdges (names units) (edges units) = .error name) :
    TransGen (Walk.Leads (dependents (edges units))) name name := by
  simp only [ofEdges] at h
  split at h
  · rename_i found hfind
    cases h
    exact .single (mem_dependents.mpr (by simpa using List.find?_some hfind))
  · split at h
    · rename_i hmisplaced
      cases h
      obtain ⟨hnodup, hnames, hranked⟩ := walk_spec units
      obtain ⟨before, last, after, hsplit, hd, hbefore, -⟩ := firstMisplaced_eq_some hmisplaced
      have hedge := mem_dependents.mpr (mem_dependencies.mp hd)
      obtain ⟨-, -, -, -, hlisted⟩ := mem_edges.mp (mem_dependencies.mp hd)
      have hmem : name ∈ before ++ last :: after := hsplit ▸ (hnames name).mpr hlisted
      rcases List.mem_append.mp hmem with hmem | hmem
      · exact absurd hmem hbefore
      rcases List.mem_cons.mp hmem with rfl | hmem
      · exact .single hedge
      · obtain ⟨front, back, rfl⟩ := List.append_of_mem hmem
        have hplace : (walk units).finished = (before ++ last :: front) ++ name :: back :=
          hsplit.trans (by rw [List.append_assoc, List.cons_append])
        rcases hranked.of_leads hplace hedge with hlast | hback
        · -- the dependent would stand in the list twice
          have htwice := (List.nodup_append'.mp (hsplit ▸ hnodup)).2.1
          rw [List.nodup_cons] at htwice
          exact absurd (List.mem_append_right front (List.mem_cons_of_mem name hlast)) htwice.1
        · exact TransGen.head' hedge hback
    · cases h

end UnitOrder

open UnitOrder

/-- **Units without circles** have an order. -/
theorem dependencyOrder_eq_ok {units : List FileDescriptor}
    (hacyclic : ∀ a, ¬ TransGen (Walk.Leads (dependents (edges units))) a a) :
    ∃ order, dependencyOrder units = .ok order := by
  unfold dependencyOrder
  cases horder : ofEdges (names units) (edges units) with
  | ok order => exact ⟨_, rfl⟩
  | error name => exact absurd (ofEdges_eq_error horder) (hacyclic name)

/-! ## What an order holds -/

section

variable {units order : List FileDescriptor}

theorem order_eq_filterMap (h : dependencyOrder units = .ok order) :
    order = (walk units).finished.filterMap fun name => units.find? fun u => u.name == name := by
  unfold dependencyOrder at h
  split at h
  · rename_i names hnames
    obtain ⟨rfl, -⟩ := ofEdges_eq_ok hnames
    exact (Except.ok.inj h).symm
  · cases h

/-- **An order of units** holds the first unit of every name. -/
theorem mem_dependencyOrder (h : dependencyOrder units = .ok order) {unit : FileDescriptor} :
    unit ∈ order ↔ (units.find? fun u => u.name == unit.name) = some unit := by
  obtain ⟨-, hall, -⟩ := walk_spec units
  rw [order_eq_filterMap h, List.mem_filterMap]
  constructor
  · rintro ⟨name, -, hfind⟩
    have hname : unit.name = name := by simpa using List.find?_some hfind
    rw [hname, hfind]
  · intro hfind
    exact ⟨unit.name, (hall _).mpr (List.mem_map_of_mem (List.mem_of_find?_eq_some hfind)), hfind⟩

/-- The names of the units in an order are the names that were put in order. -/
theorem ofEdges_of_order (h : dependencyOrder units = .ok order) :
    ofEdges (names units) (edges units) = .ok (order.map FileDescriptor.name) := by
  have hname : ∀ name ∈ (walk units).finished,
      (units.find? fun u => u.name == name).map FileDescriptor.name = some name := by
    intro name hname
    obtain ⟨unit, hu, rfl⟩ := List.mem_map.mp (((walk_spec units).2.1 name).mp hname)
    cases hfind : units.find? fun u => u.name == unit.name with
    | none => exact absurd (List.find?_eq_none.mp hfind unit hu) (by simp)
    | some found => simpa using List.find?_some hfind
  have hmap : order.map FileDescriptor.name = (walk units).finished := by
    rw [order_eq_filterMap h, List.map_filterMap, List.filterMap_congr hname, List.filterMap_some]
  unfold dependencyOrder at h
  split at h
  · rename_i names hnames
    rw [hmap, hnames, (ofEdges_eq_ok hnames).1]
  · cases h

/-- No two units in an order have the same name. -/
theorem nodup_dependencyOrder (h : dependencyOrder units = .ok order) :
    (order.map FileDescriptor.name).Nodup := by
  rw [(ofEdges_eq_ok (ofEdges_of_order h)).1]
  exact (walk_spec units).1

end

namespace SchemaPool

variable {pool : SchemaPool} {unit : FileDescriptor}

/-- **The closure of a unit** of a built pool has an order. -/
theorem Built.order_eq_ok (h : pool.Built) (hu : unit ∈ pool.files) : ∃ units order,
    pool.closure unit.name = .ok units ∧ dependencyOrder units = .ok order := by
  obtain ⟨units, hclosure, hn, hunits⟩ := h.closure_eq hu
  have hfiles : ∀ u ∈ units, u ∈ pool.files := fun u hm =>
    Imports.mem_of_reaches ((hunits u).mp hm) hu
  have hless : ∀ a b, Walk.Leads (dependents (edges units)) a b → pool.place a < pool.place b := by
    intro a b hab
    obtain ⟨u, hm, rfl, hd, hlisted⟩ := mem_edges.mp (mem_dependents.mp hab)
    obtain ⟨other, ho, rfl⟩ := List.mem_map.mp hlisted
    exact h.place_lt ⟨hfiles u hm, hfiles other ho, hd⟩
  have hacyclic : ∀ a, ¬ TransGen (Walk.Leads (dependents (edges units))) a a := by
    intro a hc
    have hlt : ∀ b, TransGen (Walk.Leads (dependents (edges units))) a b →
        pool.place a < pool.place b := by
      intro b hb
      induction hb with
      | single hs => exact hless _ _ hs
      | tail _ hs ih => exact ih.trans (hless _ _ hs)
    exact absurd (hlt a hc) (lt_irrefl _)
  obtain ⟨order, horder⟩ := dependencyOrder_eq_ok hacyclic
  exact ⟨units, order, hclosure, horder⟩

end SchemaPool

end CellFilter
