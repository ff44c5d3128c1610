import CellFilter.Payload.Basic
import CellFilter.Proofs.Payload.Order
import CellFilter.Proofs.Schema.Transfer

/-!
# Units laid out and planted

A payload lays a unit out as a tree, what it depends on first, and a unit that stands further to the
front only by name.  Planting the tree adds the units to a pool in that order.  Laying out and
planting run side by side: a name is known when its unit was planted, or when it is one of the
units that are still being laid out, and none of these is met again below.

* `UnitTree.plant`: what reading a tree does to a pool.
* `Ledger`: the names known so far and the units planted so far.
* `layOut_plants`: a unit is laid out as a tree that can be planted.
* `ofUnit_plants`: planting a whole tree yields what the unit rests on.
* `nesting_ofUnit`: no tree is nested deeper than imports go.
-/

namespace CellFilter

open Outcome Relation

namespace UnitTree

mutual

/-- Adds the units of a tree to a pool, each after what it depends on. -/
def plant : UnitTree → SchemaPool → Except FilterError SchemaPool
  | .declared unit dependencies, pool => do (← plantAll dependencies pool).addFile unit
  | .reference name, pool =>
    if pool.containsFile name then .ok pool
    else .error (.malformedPayload (.unitNotYetDefined name))

/-- Adds the units of several trees to a pool. -/
def plantAll : List UnitTree → SchemaPool → Except FilterError SchemaPool
  | [], pool => .ok pool
  | tree :: rest, pool => do plantAll rest (← tree.plant pool)

end

mutual

/-- The units that a tree holds. -/
def units : UnitTree → List FileDescriptor
  | .declared unit dependencies => unit :: unitsOfAll dependencies
  | .reference _ => []

/-- The units that several trees hold. -/
def unitsOfAll : List UnitTree → List FileDescriptor
  | [] => []
  | tree :: rest => tree.units ++ unitsOfAll rest

end

mutual

/-- How many levels of units are nested inside the outermost one. -/
def nesting : UnitTree → Nat
  | .declared _ dependencies => nestingOfAll dependencies
  | .reference _ => 0

/-- How many levels several trees take. -/
def nestingOfAll : List UnitTree → Nat
  | [] => 0
  | tree :: rest => max (tree.nesting + 1) (nestingOfAll rest)

end

/-! ## What planting adds -/

variable {P Q Q' Q'' : SchemaPool} {unit other : FileDescriptor}
  {known known' known'' : List String} {starts starts' : List FileDescriptor} {bound : Nat}

/-- The names known so far: every planted unit is known, and a known unit that is not planted yet
stands behind everything that is to come. -/
structure Ledger (P : SchemaPool) (bound : Nat) (known : List String) (Q : SchemaPool) : Prop where
  within : SchemaPool.Within Q P
  listed : ∀ v ∈ Q.files, v.name ∈ known
  planted : ∀ n ∈ known, (∃ v ∈ Q.files, v.name = n) ∨ bound ≤ P.place n

/-- What laying out some units and planting them adds. -/
structure Extends (P : SchemaPool) (starts : List FileDescriptor) (known : List String)
    (Q : SchemaPool) (known' : List String) (Q' : SchemaPool) : Prop where
  within : SchemaPool.Within Q' P
  kept : ∀ n ∈ known, n ∈ known'
  listed : ∀ v ∈ Q'.files, v.name ∈ known'
  planted : ∀ n ∈ known', n ∈ known ∨ ∃ v ∈ Q'.files, v.name = n
  mono : ∀ v ∈ Q.files, v ∈ Q'.files
  reached : ∀ v ∈ Q'.files, v ∈ Q.files ∨ ∃ u ∈ starts, ReflTransGen P.Imports u v
  starts : ∀ u ∈ starts, u ∈ Q'.files

theorem Ledger.extend (h : Ledger P bound known Q) (he : Extends P starts known Q known' Q') :
    Ledger P bound known' Q' := by
  refine ⟨he.within, he.listed, fun n hn => ?_⟩
  rcases he.planted n hn with hold | hnew
  · rcases h.planted n hold with ⟨v, hv, hname⟩ | hlate
    · exact Or.inl ⟨v, he.mono v hv, hname⟩
    · exact Or.inr hlate
  · exact Or.inl hnew

/-- A known unit in front of what is still open was planted. -/
theorem Ledger.mem_of_known (h : Ledger P bound known Q) (hP : P.Built) (hu : unit ∈ P.files)
    (hplace : P.place unit.name < bound) (hn : unit.name ∈ known) : unit ∈ Q.files := by
  rcases h.planted _ hn with ⟨v, hv, hname⟩ | hlate
  · rw [← hP.eq_of_name (h.within.files v hv) hu hname]
    exact hv
  · omega

/-- Opening a unit. -/
theorem Ledger.enter (h : Ledger P bound known Q) (hplace : P.place unit.name < bound) :
    Ledger P (P.place unit.name) (unit.name :: known) Q := by
  refine ⟨h.within, fun v hv => List.mem_cons_of_mem _ (h.listed v hv), fun n hn => ?_⟩
  rcases List.mem_cons.mp hn with rfl | hn
  · exact Or.inr le_rfl
  · rcases h.planted n hn with hplanted | hlate
    · exact Or.inl hplanted
    · exact Or.inr (by omega)

namespace Extends

theorem refl (h : Ledger P bound known Q) (hs : ∀ u ∈ starts, u ∈ Q.files) :
    Extends P starts known Q known Q where
  within := h.within
  kept := fun _ hn => hn
  listed := h.listed
  planted := fun _ hn => Or.inl hn
  mono := fun _ hv => hv
  reached := fun _ hv => Or.inl hv
  starts := hs

theorem trans (h : Extends P starts known Q known' Q') (h' : Extends P starts' known' Q' known'' Q'') :
    Extends P (starts ++ starts') known Q known'' Q'' where
  within := h'.within
  kept := fun n hn => h'.kept n (h.kept n hn)
  listed := h'.listed
  planted := by
    intro n hn
    rcases h'.planted n hn with hold | hnew
    · rcases h.planted n hold with hold | ⟨v, hv, hname⟩
      · exact Or.inl hold
      · exact Or.inr ⟨v, h'.mono v hv, hname⟩
    · exact Or.inr hnew
  mono := fun v hv => h'.mono v (h.mono v hv)
  reached := by
    intro v hv
    rcases h'.reached v hv with hold | ⟨u, hu, hr⟩
    · rcases h.reached v hold with hold | ⟨u, hu, hr⟩
      · exact Or.inl hold
      · exact Or.inr ⟨u, List.mem_append_left _ hu, hr⟩
    · exact Or.inr ⟨u, List.mem_append_right _ hu, hr⟩
  starts := by
    intro u hu
    rcases List.mem_append.mp hu with hu | hu
    · exact h'.mono u (h.starts u hu)
    · exact h'.starts u hu

/-- A unit that was opened is planted after what it imports. -/
theorem leave (hP : P.Built) (hu : unit ∈ P.files) (hnew : unit.name ∉ known)
    (hl : Ledger P bound known Q) (himports : ∀ w, P.Imports unit w ↔ w ∈ starts)
    (hq : P.Qualified unit) (h : Extends P starts (unit.name :: known) Q known' Q') :
    ∃ Q'', Q'.addFile unit = .ok Q'' ∧ Extends P [unit] known Q known' Q'' := by
  -- nothing that the unit imports leads back to it
  have hfresh : unit ∉ Q'.files := by
    intro hmem
    rcases h.reached unit hmem with hold | ⟨w, hw, hr⟩
    · exact hnew (hl.listed unit hold)
    · exact absurd (hP.place_le hr) (not_le.mpr (hP.place_lt ((himports w).mpr hw)))
  obtain ⟨Q'', hadd, hwithin, hfiles⟩ := h.within.addFile_eq_ok hP hu hfresh
    (fun w hw => h.starts w ((himports w).mp hw)) hq
  have hmem : ∀ v, v ∈ Q''.files ↔ v ∈ Q'.files ∨ v = unit := by simp [hfiles]
  refine ⟨Q'', hadd, hwithin, fun n hn => h.kept n (List.mem_cons_of_mem _ hn), ?_, ?_, ?_, ?_, ?_⟩
  · intro v hv
    rcases (hmem v).mp hv with hv | rfl
    · exact h.listed v hv
    · exact h.kept _ List.mem_cons_self
  · intro n hn
    rcases h.planted n hn with hold | ⟨v, hv, hname⟩
    · rcases List.mem_cons.mp hold with rfl | hold
      · exact Or.inr ⟨unit, (hmem unit).mpr (Or.inr rfl), rfl⟩
      · exact Or.inl hold
    · exact Or.inr ⟨v, (hmem v).mpr (Or.inl hv), hname⟩
  · exact fun v hv => (hmem v).mpr (Or.inl (h.mono v hv))
  · intro v hv
    rcases (hmem v).mp hv with hv | rfl
    · rcases h.reached v hv with hold | ⟨w, hw, hr⟩
      · exact Or.inl hold
      · exact Or.inr ⟨unit, List.mem_singleton_self _, .head ((himports w).mpr hw) hr⟩
    · exact Or.inr ⟨v, List.mem_singleton_self _, .refl⟩
  · intro u hu
    rw [List.mem_singleton.mp hu]
    exact (hmem unit).mpr (Or.inr rfl)

end Extends

/-! ## Laying out -/

variable {order : List String} {depth : Nat}

/-- The units that a unit depends on are its imports. -/
theorem directDependencies_eq_ok (hP : P.Built) (hu : unit ∈ P.files) :
    ∃ found, directDependencies P unit = .ok found ∧ ∀ w, P.Imports unit w ↔ w ∈ found := by
  obtain ⟨found, hfound⟩ : ∃ found, directDependencies P unit = .ok found := by
    refine exists_mapM_eq_ok fun name hd => ?_
    obtain ⟨w, hi, hname⟩ := hP.exists_dependency hu hd
    exact ⟨w, by rw [hP.file?_eq_some.mpr ⟨hi.2.1, hname⟩]⟩
  obtain ⟨hnames, hfiles⟩ := hP.mapM_file? (fun n u hn => by
    cases hf : P.file? n with
    | none => rw [hf] at hn; cases hn
    | some u => rw [hf] at hn; cases hn; rfl) hfound
  refine ⟨found, hfound, fun w => ⟨fun hi => ?_, fun hw => ⟨hu, hfiles w hw, ?_⟩⟩⟩
  · obtain ⟨v, hv, hname⟩ := List.mem_map.mp (hnames ▸ hi.2.2)
    rw [← hP.eq_of_name (hfiles v hv) hi.2.1 hname]
    exact hv
  · rw [← hnames]
    exact List.mem_map_of_mem hw

theorem layOut_of_known (hn : unit.name ∈ known) :
    layOut P order (depth + 1) unit known = .ok (.reference unit.name, known) := by
  show (if known.contains unit.name then _ else _ : StateT _ _ _) known = _
  rw [if_pos (by simpa using hn)]
  rfl

theorem layOut_of_new (hn : unit.name ∉ known) {found : List FileDescriptor}
    (hfound : directDependencies P unit = .ok found) :
    layOut P order (depth + 1) unit known =
      ((sortByRank order found).mapM (layOut P order depth) (unit.name :: known)).map
        fun laid => (.declared unit laid.1, laid.2) := by
  show (if known.contains unit.name then _ else _ : StateT _ _ _) known = _
  rw [if_neg (by simpa using hn)]
  show ((directDependencies P unit >>= fun found => Pure.pure (found, unit.name :: known)) >>= _) = _
  rw [hfound]
  show ((sortByRank order found).mapM (layOut P order depth) (unit.name :: known) >>= _) = _
  cases (sortByRank order found).mapM (layOut P order depth) (unit.name :: known) <;> rfl

/-- What a way of laying out a unit has to do. -/
def Plants (P : SchemaPool) (bound : Nat) (unit : FileDescriptor)
    (run : StateT (List String) (Except FilterError) UnitTree) : Prop :=
  ∀ known Q, Ledger P bound known Q → ∃ tree known' Q', run known = .ok (tree, known') ∧
    tree.plant Q = .ok Q' ∧ Extends P [unit] known Q known' Q' ∧
    ∀ v ∈ tree.units, ReflTransGen P.Imports unit v

/-- A first unit laid out, then the others. -/
theorem mapM_cons_eq_ok {run : FileDescriptor → StateT (List String) (Except FilterError) UnitTree}
    {u : FileDescriptor} {us : List FileDescriptor} {tree : UnitTree} {trees : List UnitTree}
    (hfirst : run u known = .ok (tree, known')) (hrest : us.mapM run known' = .ok (trees, known'')) :
    (u :: us).mapM run known = .ok (tree :: trees, known'') := by
  rw [List.mapM_cons]
  show (run u known >>= _) = _
  rw [hfirst]
  show (us.mapM run known' >>= _) = _
  rw [hrest]
  rfl

/-- Units laid out one after the other can be planted one after the other. -/
theorem mapM_plants {run : FileDescriptor → StateT (List String) (Except FilterError) UnitTree} :
    ∀ {us : List FileDescriptor}, (∀ u ∈ us, Plants P bound u (run u)) →
      ∀ {known Q}, Ledger P bound known Q → ∃ trees known' Q',
        us.mapM run known = .ok (trees, known') ∧ plantAll trees Q = .ok Q' ∧
        Extends P us known Q known' Q' ∧
        ∀ v ∈ unitsOfAll trees, ∃ u ∈ us, ReflTransGen P.Imports u v
  | [], _, known, Q, hl => ⟨[], known, Q, rfl, rfl, .refl hl (by simp), by simp [unitsOfAll]⟩
  | u :: us, h, known, Q, hl => by
    obtain ⟨tree, known', Q', hrun, hplant, hext, hunits⟩ := h u List.mem_cons_self known Q hl
    obtain ⟨trees, known'', Q'', hruns, hplants, hexts, hunits'⟩ :=
      mapM_plants (fun v hv => h v (List.mem_cons_of_mem u hv)) (hl.extend hext)
    refine ⟨tree :: trees, known'', Q'', mapM_cons_eq_ok hrun hruns, ?_, hext.trans hexts, ?_⟩
    · rw [plantAll, hplant]
      exact hplants
    · intro v hv
      rcases List.mem_append.mp hv with hv | hv
      · exact ⟨u, List.mem_cons_self, hunits v hv⟩
      · obtain ⟨w, hw, hr⟩ := hunits' v hv
        exact ⟨w, List.mem_cons_of_mem u hw, hr⟩

/-- **A unit laid out** can be planted, with what it rests on. -/
theorem layOut_plants (hP : P.Built) (order : List String) : ∀ {depth bound : Nat} {unit : FileDescriptor},
    unit ∈ P.files → P.place unit.name < depth → P.place unit.name < bound →
    (∀ v, ReflTransGen P.Imports unit v → P.Qualified v) →
      Plants P bound unit (layOut P order depth unit)
  | 0, _, _, _, hdepth, _, _ => absurd hdepth (Nat.not_lt_zero _)
  | depth + 1, bound, unit, hu, hdepth, hbound, hq => by
    intro known Q hl
    by_cases hknown : unit.name ∈ known
    -- the unit is not among those still open, since these stand behind the bound
    · have hmem := hl.mem_of_known hP hu hbound hknown
      refine ⟨_, _, Q, layOut_of_known hknown, ?_, .refl hl (by simpa using hmem), by simp [units]⟩
      rw [plant, if_pos (SchemaPool.containsFile_iff.mpr ⟨unit, hmem, rfl⟩)]
    · obtain ⟨found, hfound, himports⟩ := directDependencies_eq_ok hP hu
      have hsorted : ∀ w, P.Imports unit w ↔ w ∈ sortByRank order found := by
        intro w
        rw [himports, sortByRank, List.mem_mergeSort]
      have hbelow : ∀ w ∈ sortByRank order found,
          Plants P (P.place unit.name) w (layOut P order depth w) := by
        intro w hw
        have hi := (hsorted w).mpr hw
        have hless := hP.place_lt hi
        exact layOut_plants hP order hi.2.1 (by omega) hless fun v hr => hq v (.head hi hr)
      obtain ⟨trees, known', Q', hruns, hplants, hext, hunits⟩ :=
        mapM_plants hbelow (hl.enter hbound)
      obtain ⟨Q'', hadd, hext'⟩ := hext.leave hP hu hknown hl hsorted (hq unit .refl)
      refine ⟨.declared unit trees, known', Q'', ?_, ?_, hext', ?_⟩
      · rw [layOut_of_new hknown hfound, hruns]
        rfl
      · rw [plant, hplants]
        exact hadd
      · intro v hv
        rcases List.mem_cons.mp hv with rfl | hv
        · exact .refl
        · obtain ⟨w, hw, hr⟩ := hunits v hv
          exact .head ((hsorted w).mpr hw) hr

/-- **A whole tree** planted in an empty pool yields what its unit rests on and nothing else. -/
theorem ofUnit_plants (hP : P.Built) (hu : unit ∈ P.files)
    (hq : ∀ v, ReflTransGen P.Imports unit v → P.Qualified v) :
    ∃ tree Q, ofUnit P unit = .ok tree ∧ tree.plant .empty = .ok Q ∧ SchemaPool.Within Q P ∧
      (∀ v, v ∈ Q.files ↔ ReflTransGen P.Imports unit v) ∧
      ∀ v ∈ tree.units, ReflTransGen P.Imports unit v := by
  obtain ⟨closure, order, hclosure, horder⟩ := hP.order_eq_ok hu
  have hplace : P.place unit.name < P.files.length + 1 := by
    have hle := List.idxOf_le_length (l := P.files.map FileDescriptor.name) (a := unit.name)
    rw [List.length_map] at hle
    exact Nat.lt_succ_of_le hle
  have hempty : SchemaPool.Within .empty P :=
    ⟨SchemaPool.Reachable.empty.built, by simp [SchemaPool.empty]⟩
  have hl : Ledger P (P.files.length + 1) [] .empty :=
    ⟨hempty, by simp [SchemaPool.empty], by simp⟩
  obtain ⟨tree, known, Q, hrun, hplant, hext, hunits⟩ :=
    layOut_plants hP (order.map FileDescriptor.name) hu hplace hplace hq [] .empty hl
  have hmem := hext.starts unit (List.mem_singleton_self _)
  refine ⟨tree, Q, ?_, hplant, hext.within, fun v => ⟨fun hv => ?_, fun hr => ?_⟩, hunits⟩
  · rw [ofUnit, hclosure, ok_bind, horder, ok_bind, hrun]
    rfl
  · rcases hext.reached v hv with hold | ⟨w, hw, hr⟩
    · cases hold
    · rw [List.mem_singleton.mp hw] at hr
      exact hr
  · exact hext.within.mem_of_reaches hP hr hmem

/-! ## How deep a tree is -/

theorem nestingOfAll_le {levels : Nat} : ∀ {trees : List UnitTree},
    (∀ tree ∈ trees, tree.nesting + 1 ≤ levels) → nestingOfAll trees ≤ levels
  | [], _ => Nat.zero_le _
  | tree :: _, h => max_le (h tree List.mem_cons_self)
      (nestingOfAll_le fun t ht => h t (List.mem_cons_of_mem tree ht))

/-- Every tree of a list comes from a unit of the list. -/
theorem exists_layOut_of_mapM
    {run : FileDescriptor → StateT (List String) (Except FilterError) UnitTree} :
    ∀ {us : List FileDescriptor} {known known' : List String} {trees : List UnitTree},
      us.mapM run known = .ok (trees, known') →
        ∀ tree ∈ trees, ∃ u ∈ us, ∃ before after, run u before = .ok (tree, after)
  | [], _, _, _, h, tree, htree => by
    cases h
    cases htree
  | u :: us, known, known', trees, h, tree, htree => by
    rw [List.mapM_cons] at h
    obtain ⟨⟨first, middle⟩, hfirst, h⟩ := bind_eq_ok.mp h
    obtain ⟨⟨others, last⟩, hothers, h⟩ := bind_eq_ok.mp h
    cases h
    rcases List.mem_cons.mp htree with rfl | htree
    · exact ⟨u, List.mem_cons_self, known, middle, hfirst⟩
    · obtain ⟨w, hw, hrun⟩ := exists_layOut_of_mapM hothers tree htree
      exact ⟨w, List.mem_cons_of_mem u hw, hrun⟩

/-- A tree is nested no deeper than imports go. -/
theorem nesting_layOut (hP : P.Built) : ∀ {depth levels : Nat} {unit : FileDescriptor}
    {known known' : List String} {tree : UnitTree}, unit ∈ P.files → P.Shallow levels unit →
      layOut P order depth unit known = .ok (tree, known') → tree.nesting ≤ levels
  | 0, _, _, _, _, _, _, _, h => by
    cases h
    exact Nat.zero_le _
  | depth + 1, levels, unit, known, known', tree, hu, hshallow, h => by
    by_cases hknown : unit.name ∈ known
    · rw [layOut_of_known hknown] at h
      cases h
      exact Nat.zero_le _
    · obtain ⟨found, hfound, himports⟩ := directDependencies_eq_ok hP hu
      rw [layOut_of_new hknown hfound] at h
      obtain ⟨⟨trees, last⟩, hruns, h⟩ := map_eq_ok.mp h
      cases h
      refine nestingOfAll_le fun tree htree => ?_
      obtain ⟨w, hw, before, after, hrun⟩ := exists_layOut_of_mapM hruns tree htree
      have hi : P.Imports unit w := (himports w).mpr (List.mem_mergeSort.mp hw)
      obtain ⟨fewer, rfl, hfewer⟩ := hshallow.step hi
      exact Nat.succ_le_succ (nesting_layOut hP hi.2.1 hfewer hrun)

theorem nesting_ofUnit (hP : P.Built) (hu : unit ∈ P.files) {levels : Nat}
    (hshallow : P.Shallow levels unit) {tree : UnitTree} (h : ofUnit P unit = .ok tree) :
    tree.nesting ≤ levels := by
  unfold ofUnit at h
  obtain ⟨closure, -, h⟩ := bind_eq_ok.mp h
  obtain ⟨order, -, h⟩ := bind_eq_ok.mp h
  obtain ⟨⟨laid, known⟩, hlaid, h⟩ := bind_eq_ok.mp h
  cases h
  exact nesting_layOut hP hu hshallow hlaid

end UnitTree

end CellFilter
