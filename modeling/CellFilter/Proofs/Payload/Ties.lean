import CellFilter.Proofs.Payload.Sorting
import Mathlib.Data.List.Chain

/-!
# Ties in the order of units

Where dependencies leave it open which of two units comes first, the order of units does not keep
the input.  The walk finishes the units that it comes to first first, and the order goes from the
unit finished last to the one finished first: of two units one after the other the second depends on
the first, or it stood before it in the input.

* `Walk.Backward`: what holds of neighbours in the list of finished names; `ofStarts_backward`.
* `backward_of_order`: the same of neighbours in an order of units.
* `eq_of_isChain`: units each of which depends on the one before it have one order only.
* `dependencyOrder_ties`: **ties** are broken against the input.
-/

namespace CellFilter

open Relation

/-! ## Neighbours in a walk -/

namespace Walk

variable {next : String → List String} {rank : String → Nat} {w : Walk} {a : String}

/-- Each name of a list is next to the one before it, or its rank is not above it. -/
def Backward (next : String → List String) (rank : String → Nat) (l : List String) : Prop :=
  l.IsChain fun a b => b ∈ next a ∨ rank b ≤ rank a

/-- What visiting names in the order of their ranks finishes: names of at least these ranks, the
last of which was among the names that were visited. -/
structure FinishesBackward (next : String → List String) (rank : String → Nat)
    (starts done : List String) : Prop where
  backward : Backward next rank done
  above : ∀ b ∈ done, ∃ a ∈ starts, rank a ≤ rank b
  last : ∀ b ∈ done.head?, b ∈ starts

theorem finishesBackward_nil (starts : List String) : FinishesBackward next rank starts [] where
  backward := .nil
  above := by simp
  last := by simp

theorem foldl_backward {visit : Walk → String → Walk}
    (hvisit : ∀ w a, ∃ done, (visit w a).finished = done ++ w.finished ∧
      FinishesBackward next rank [a] done) :
    ∀ (starts : List String) (w : Walk), starts.Pairwise (fun a b => rank a ≤ rank b) →
      ∃ done, (starts.foldl visit w).finished = done ++ w.finished ∧
        FinishesBackward next rank starts done
  | [], w, _ => ⟨[], rfl, finishesBackward_nil []⟩
  | a :: starts, w, hranks => by
    obtain ⟨hfirst, hranks⟩ := List.pairwise_cons.mp hranks
    obtain ⟨done, hdone, h⟩ := hvisit w a
    obtain ⟨done', hdone', h'⟩ := foldl_backward hvisit starts (visit w a) hranks
    refine ⟨done' ++ done, by rw [List.foldl_cons, hdone', hdone, List.append_assoc], ?_, ?_, ?_⟩
    · -- what was visited later does not lie below the name before it
      refine List.isChain_append.mpr ⟨h'.backward, h.backward, fun b hb c hc => .inr ?_⟩
      obtain ⟨d, hd, hle⟩ := h'.above b (List.mem_of_mem_getLast? hb)
      obtain rfl := List.mem_singleton.mp (h.last c hc)
      exact (hfirst d hd).trans hle
    · intro b hb
      rcases List.mem_append.mp hb with hb | hb
      · obtain ⟨c, hc, hle⟩ := h'.above b hb
        exact ⟨c, List.mem_cons_of_mem a hc, hle⟩
      · obtain ⟨c, hc, hle⟩ := h.above b hb
        obtain rfl := List.mem_singleton.mp hc
        exact ⟨c, List.mem_cons_self, hle⟩
    · intro b hb
      cases done' with
      | nil =>
        rw [List.mem_singleton.mp (h.last b hb)]
        exact List.mem_cons_self
      | cons c done' => exact List.mem_cons_of_mem a (h'.last b hb)

/-- **A visit** finishes the name itself last. -/
theorem visit_backward (hnext : ∀ a, (next a).Pairwise fun b c => rank b ≤ rank c)
    (hup : ∀ a, ∀ b ∈ next a, rank a ≤ rank b) : ∀ (depth : Nat) (w : Walk) (a : String),
      ∃ done, (visit next depth w a).finished = done ++ w.finished ∧
        FinishesBackward next rank [a] done := by
  intro depth
  induction depth with
  | zero => exact fun w a => ⟨[], rfl, finishesBackward_nil [a]⟩
  | succ depth ih =>
    intro w a
    by_cases hknown : a ∈ w.discovered
    · exact ⟨[], by rw [UnitOrder.visit_of_mem hknown]; rfl, finishesBackward_nil [a]⟩
    · obtain ⟨done, hdone, h⟩ :=
        foldl_backward ih (next a) ⟨a :: w.discovered, w.finished⟩ (hnext a)
      rw [visit, if_neg (by simpa using hknown)]
      refine ⟨a :: done, congrArg (a :: ·) hdone, ?_, ?_, ?_⟩
      · exact List.isChain_cons.mpr ⟨fun b hb => .inl (h.last b hb), h.backward⟩
      · intro b hb
        refine ⟨a, List.mem_singleton_self a, ?_⟩
        rcases List.mem_cons.mp hb with rfl | hb
        · exact le_rfl
        · obtain ⟨c, hc, hle⟩ := h.above b hb
          exact (hup a c hc).trans hle
      · simp

theorem ofStarts_backward (hnext : ∀ a, (next a).Pairwise fun b c => rank b ≤ rank c)
    (hup : ∀ a, ∀ b ∈ next a, rank a ≤ rank b) (depth : Nat) {starts : List String}
    (hstarts : starts.Pairwise fun a b => rank a ≤ rank b) :
    Backward next rank (ofStarts next depth starts).finished := by
  obtain ⟨done, hdone, h⟩ := foldl_backward (visit_backward hnext hup depth) starts .empty hstarts
  rw [ofStarts, hdone]
  simpa [empty] using h.backward

end Walk

namespace UnitOrder

/-! ## Ranks of units -/

section

variable {units order : List FileDescriptor} {unit other : FileDescriptor} {a b : String}

/-- One of the units stands before another. -/
def Precedes (units : List FileDescriptor) (other unit : FileDescriptor) : Prop :=
  ∃ before after, units = before ++ unit :: after ∧ other ∈ before

/-- Each of the units stands behind the ones that it depends on. -/
def Ordered (units : List FileDescriptor) : Prop :=
  ∀ unit other, DependsOn units unit other → Precedes units other unit

/-- The place of the first unit of a name. -/
def rank (units : List FileDescriptor) (name : String) : Nat :=
  (units.map FileDescriptor.name).idxOf name

theorem names_eq_map (hn : (units.map FileDescriptor.name).Nodup) :
    names units = units.map FileDescriptor.name := by
  induction units using List.reverseRecOn with
  | nil => rfl
  | append_singleton units unit ih =>
    rw [List.map_append, List.nodup_append'] at hn
    have hnew : unit.name ∉ names units := by
      rw [ih hn.1]
      exact fun h => hn.2.2 h List.mem_cons_self
    rw [names_concat, if_neg hnew, ih hn.1, List.map_append, List.map_singleton]

/-- Units with different names stand in the order of their ranks. -/
theorem pairwise_rank (hn : (units.map FileDescriptor.name).Nodup) :
    units.Pairwise fun u v => rank units u.name < rank units v.name := by
  rw [List.pairwise_iff_getElem]
  intro i j hi hj hij
  have hrank : ∀ k (hk : k < units.length), rank units units[k].name = k := by
    intro k hk
    have hplace := hn.idxOf_getElem k (by simpa using hk)
    rwa [List.getElem_map] at hplace
  rw [hrank i hi, hrank j hj]
  exact hij

theorem precedes_iff (hn : (units.map FileDescriptor.name).Nodup) (hu : unit ∈ units)
    (ho : other ∈ units) :
    Precedes units other unit ↔ rank units other.name < rank units unit.name := by
  have hless : ∀ {u v before after}, units = before ++ u :: after → v ∈ before →
      rank units v.name < rank units u.name := by
    rintro u v before after rfl hv
    exact (List.pairwise_append.mp (pairwise_rank hn)).2.2 v hv u List.mem_cons_self
  constructor
  · rintro ⟨before, after, hsplit, hbefore⟩
    exact hless hsplit hbefore
  · intro hrank
    obtain ⟨before, after, hsplit⟩ := List.append_of_mem hu
    rw [hsplit] at ho
    rcases List.mem_append.mp ho with ho | ho
    · exact ⟨before, after, hsplit, ho⟩
    rcases List.mem_cons.mp ho with rfl | ho
    · exact absurd hrank (Nat.lt_irrefl _)
    · -- a unit behind another one has the higher rank
      obtain ⟨front, back, rfl⟩ := List.append_of_mem ho
      have hbehind : units = (before ++ unit :: front) ++ other :: back := by simp [hsplit]
      have := hless hbehind (List.mem_append_right before List.mem_cons_self)
      omega

theorem rank_injOn (hu : unit ∈ units) (h : rank units unit.name = rank units other.name) :
    unit.name = other.name :=
  (List.idxOf_inj (List.mem_map_of_mem hu)).mp h

/-! ## The order of ordered units -/

/-- The dependents of a name in the order of their ranks. -/
theorem pairwise_dependents (hn : (units.map FileDescriptor.name).Nodup) (a : String) :
    (dependents (edges units) a).Pairwise fun b c => rank units b ≤ rank units c := by
  -- the edges of one unit all lead to it
  have hblock : ∀ (unit : FileDescriptor) (known : List String),
      ∀ b ∈ ((known.map fun d => (d, unit.name)).filter fun e => e.1 == a).map Prod.snd,
        b = unit.name := by
    intro unit known b hb
    simp only [List.mem_map, List.mem_filter] at hb
    obtain ⟨e, ⟨⟨d, -, rfl⟩, -⟩, rfl⟩ := hb
    rfl
  rw [dependents, edges, List.filter_flatMap, List.map_flatMap, List.pairwise_flatMap]
  refine ⟨fun unit _ => List.pairwise_of_forall_mem_list fun b hb c hc => ?_, ?_⟩
  · rw [hblock unit _ b hb, hblock unit _ c hc]
  · refine (pairwise_rank hn).imp fun {u v} hless b hb c hc => ?_
    rw [hblock u _ b hb, hblock v _ c hc]
    exact Nat.le_of_lt hless

theorem rank_lt_of_dependents (hn : (units.map FileDescriptor.name).Nodup) (h : Ordered units)
    (hb : b ∈ dependents (edges units) a) : rank units a < rank units b := by
  obtain ⟨unit, other, hdepends, rfl, rfl⟩ := leads_iff.mp hb
  exact (precedes_iff hn hdepends.1 hdepends.2.1).mp (h unit other hdepends)

/-- **Ordered units** have an order. -/
theorem exists_order (hn : (units.map FileDescriptor.name).Nodup) (h : Ordered units) :
    ∃ order, dependencyOrder units = .ok order := by
  refine dependencyOrder_eq_ok fun a hcircle => ?_
  have hlt : ∀ b, TransGen (Walk.Leads (dependents (edges units))) a b →
      rank units a < rank units b := by
    intro b hb
    induction hb with
    | single hstep => exact rank_lt_of_dependents hn h hstep
    | tail _ hstep ih => exact ih.trans (rank_lt_of_dependents hn h hstep)
  exact absurd (hlt a hcircle) (Nat.lt_irrefl _)

/-- An order is ordered. -/
theorem ordered_of_order (hn : (units.map FileDescriptor.name).Nodup)
    (h : dependencyOrder units = .ok order) : Ordered order := by
  intro unit other hdepends
  have hperm := perm_of_order hn h
  obtain ⟨before, after, hsplit⟩ := List.append_of_mem hdepends.1
  exact ⟨before, after, hsplit, before_of_dependsOn hn h hsplit
    ⟨hperm.mem_iff.mp hdepends.1, hperm.mem_iff.mp hdepends.2.1, hdepends.2.2⟩⟩

/-- **Of two neighbours** in an order the second depends on the first, or stood before it. -/
theorem backward_of_order (hn : (units.map FileDescriptor.name).Nodup) (hordered : Ordered units)
    (h : dependencyOrder units = .ok order) :
    order.IsChain fun u v => u.name ∈ v.dependencies ∨ Precedes units v u := by
  have hperm := perm_of_order hn h
  have hstarts : (names units).Pairwise fun a b => rank units a ≤ rank units b := by
    rw [names_eq_map hn, List.pairwise_map]
    exact (pairwise_rank hn).imp Nat.le_of_lt
  have hwalk := Walk.ofStarts_backward (pairwise_dependents hn)
    (fun a b hb => Nat.le_of_lt (rank_lt_of_dependents hn hordered hb)) (names units).length hstarts
  have hnames := (ofEdges_eq_ok (ofEdges_of_order h)).1
  rw [Walk.Backward, ← walk, ← hnames, List.isChain_map, List.isChain_iff_getElem] at hwalk
  rw [List.isChain_iff_getElem]
  intro i hi
  have hfirst := hperm.mem_iff.mp (List.getElem_mem (Nat.lt_of_succ_lt hi))
  have hsecond := hperm.mem_iff.mp (List.getElem_mem hi)
  refine (hwalk i hi).imp (fun hnext => ?_) fun hrank => ?_
  · obtain ⟨unit, other, hdepends, hunit, hother⟩ := leads_iff.mp hnext
    obtain rfl := List.inj_on_of_nodup_map hn hdepends.1 hsecond hunit
    rw [← hother]
    exact hdepends.2.2
  · rw [precedes_iff hn hfirst hsecond]
    refine Nat.lt_of_le_of_ne hrank fun hsame => ?_
    have hnames := List.pairwise_map.mp (nodup_dependencyOrder h)
    exact List.pairwise_iff_getElem.mp hnames i (i + 1) _ hi i.lt_succ_self
      (rank_injOn hsecond hsame).symm

/-! ## Orders that there is no choice in -/

/-- Two orders of the same units by the same ranks. -/
theorem eq_of_ranks {f : FileDescriptor → Nat} (hperm : order.Perm units)
    (horder : order.Pairwise fun u v => f u < f v) (hunits : units.Pairwise fun u v => f u < f v) :
    order = units :=
  hperm.eq_of_pairwise (fun _ _ _ _ h h' => absurd h (Nat.lt_asymm h')) horder hunits

/-- Neighbours by ranks are all there is to know. -/
theorem pairwise_of_isChain {f : FileDescriptor → Nat}
    (h : units.IsChain fun u v => f u < f v) : units.Pairwise fun u v => f u < f v :=
  List.pairwise_map.mp (((List.isChain_map f).mpr h).pairwise)

/-- **Units each of which depends on the one before it** have one order only. -/
theorem eq_of_isChain (hn : (units.map FileDescriptor.name).Nodup)
    (h : units.IsChain fun u v => u.name ∈ v.dependencies) (hperm : order.Perm units)
    (hordered : Ordered order) : order = units := by
  have hn' : (order.map FileDescriptor.name).Nodup :=
    (hperm.map FileDescriptor.name).nodup_iff.mpr hn
  refine eq_of_ranks hperm (pairwise_rank hn') (pairwise_of_isChain ?_)
  rw [List.isChain_iff_getElem] at h ⊢
  intro i hi
  have hfirst := hperm.mem_iff.mpr (List.getElem_mem (Nat.lt_of_succ_lt hi))
  have hsecond := hperm.mem_iff.mpr (List.getElem_mem hi)
  exact (precedes_iff hn' hsecond hfirst).mp (hordered _ _ ⟨hsecond, hfirst, h i hi⟩)

/-- Ordered units that are their own order. -/
theorem isChain_of_order (hn : (units.map FileDescriptor.name).Nodup) (hordered : Ordered units)
    (h : dependencyOrder units = .ok units) :
    units.IsChain fun u v => u.name ∈ v.dependencies := by
  have hbackward := backward_of_order hn hordered h
  rw [List.isChain_iff_getElem] at hbackward ⊢
  intro i hi
  refine (hbackward i hi).resolve_right fun hprecedes => ?_
  have hless := List.pairwise_iff_getElem.mp (pairwise_rank hn) i (i + 1) (Nat.lt_of_succ_lt hi) hi
    i.lt_succ_self
  have := (precedes_iff hn (List.getElem_mem (Nat.lt_of_succ_lt hi)) (List.getElem_mem hi)).mp
    hprecedes
  omega

/-- Units that do not depend on each other come out in reverse. -/
theorem order_eq_reverse (hn : (units.map FileDescriptor.name).Nodup)
    (h : ∀ unit other, ¬ DependsOn units unit other) :
    dependencyOrder units = .ok units.reverse := by
  have hordered : Ordered units := fun unit other hdepends => absurd hdepends (h unit other)
  obtain ⟨order, horder⟩ := exists_order hn hordered
  have hperm := perm_of_order hn horder
  have hbackward := backward_of_order hn hordered horder
  have hranks : order.reverse.Pairwise fun u v => rank units u.name < rank units v.name := by
    refine pairwise_of_isChain (List.isChain_reverse.mpr ?_)
    rw [List.isChain_iff_getElem] at hbackward ⊢
    intro i hi
    have hfirst := hperm.mem_iff.mp (List.getElem_mem (Nat.lt_of_succ_lt hi))
    have hsecond := hperm.mem_iff.mp (List.getElem_mem hi)
    refine (precedes_iff hn hfirst hsecond).mp ((hbackward i hi).resolve_left fun hdepends => ?_)
    exact h _ _ ⟨hsecond, hfirst, hdepends⟩
  have hreverse := eq_of_ranks ((List.reverse_perm order).trans hperm) hranks (pairwise_rank hn)
  rw [horder, ← hreverse, List.reverse_reverse]

end

end UnitOrder

open UnitOrder

/-- **Ties are broken against the input.**  Units with different names that stand behind what they
depend on stay as they are just if each depends on the one before it, which is to say that nothing
was left open.  In their order each unit depends on the one before it or stood before it; units that
do not depend on each other are reversed.  What was put in order once stays in order just if nothing
was left open. -/
theorem dependencyOrder_ties {units : List FileDescriptor}
    (hn : (units.map FileDescriptor.name).Nodup) :
    (Ordered units →
      (dependencyOrder units = .ok units ↔ units.IsChain fun u v => u.name ∈ v.dependencies) ∧
      (dependencyOrder units = .ok units ↔
        ∀ other, other.Perm units → Ordered other → other = units) ∧
      (∃ order, dependencyOrder units = .ok order ∧
        order.IsChain fun u v => u.name ∈ v.dependencies ∨ Precedes units v u) ∧
      ((∀ unit other, ¬ DependsOn units unit other) →
        dependencyOrder units = .ok units.reverse)) ∧
    ∀ order, dependencyOrder units = .ok order →
      (dependencyOrder order = .ok order ↔
        order.IsChain fun u v => u.name ∈ v.dependencies) := by
  have hkept : ∀ {units : List FileDescriptor}, (units.map FileDescriptor.name).Nodup →
      Ordered units → (units.IsChain fun u v => u.name ∈ v.dependencies) →
        dependencyOrder units = .ok units := by
    intro units hn hordered hchain
    obtain ⟨order, horder⟩ := exists_order hn hordered
    rw [horder, eq_of_isChain hn hchain (perm_of_order hn horder) (ordered_of_order hn horder)]
  refine ⟨fun hordered => ⟨⟨isChain_of_order hn hordered, hkept hn hordered⟩, ⟨?_, ?_⟩, ?_,
    order_eq_reverse hn⟩, fun order horder => ?_⟩
  · exact fun h other hperm => eq_of_isChain hn (isChain_of_order hn hordered h) hperm
  · intro hunique
    obtain ⟨order, horder⟩ := exists_order hn hordered
    rw [horder, hunique order (perm_of_order hn horder) (ordered_of_order hn horder)]
  · obtain ⟨order, horder⟩ := exists_order hn hordered
    exact ⟨order, horder, backward_of_order hn hordered horder⟩
  · have hn' := nodup_dependencyOrder horder
    have hordered := ordered_of_order hn horder
    exact ⟨isChain_of_order hn' hordered, hkept hn' hordered⟩

/-! ### Units with one order and units with two -/

/-- Units each of which depends on the one before it. -/
def ladderUnits : List FileDescriptor :=
  [plainUnit "base" [], plainUnit "side" ["base"], plainUnit "top" ["base", "side", "far"]]

/-- Two units that do not depend on each other. -/
def looseUnits : List FileDescriptor := [plainUnit "a" [], plainUnit "b" []]

theorem ladderUnits_ordered : Ordered ladderUnits := by
  have hranks : ∀ u ∈ ladderUnits, ∀ v ∈ ladderUnits, v.name ∈ u.dependencies →
      rank ladderUnits v.name < rank ladderUnits u.name := by decide
  rintro unit other ⟨hu, ho, hd⟩
  exact (precedes_iff (by decide) hu ho).mpr (hranks unit hu other ho hd)

theorem looseUnits_independent (unit other : FileDescriptor) :
    ¬ DependsOn looseUnits unit other := by
  have hnone : ∀ u ∈ looseUnits, u.dependencies = [] := by decide
  rintro ⟨hu, -, hd⟩
  rw [hnone unit hu] at hd
  cases hd

theorem looseUnits_ordered : Ordered looseUnits :=
  fun unit other h => absurd h (looseUnits_independent unit other)

theorem dependencyOrder_ties_chain : (ladderUnits.map FileDescriptor.name).Nodup ∧
    Ordered ladderUnits ∧ dependencyOrder ladderUnits = .ok ladderUnits ∧
    (∀ other, other.Perm ladderUnits → Ordered other → other = ladderUnits) ∧
    (looseUnits.map FileDescriptor.name).Nodup ∧
    dependencyOrder looseUnits = .ok looseUnits.reverse := by
  have hchain : (ladderUnits.map FileDescriptor.name).Nodup := by decide
  have hloose : (looseUnits.map FileDescriptor.name).Nodup := by decide
  obtain ⟨hkept, honly, -, -⟩ := (dependencyOrder_ties hchain).1 ladderUnits_ordered
  obtain ⟨-, -, -, hreverse⟩ := (dependencyOrder_ties hloose).1 looseUnits_ordered
  have hsame := hkept.mpr (by decide)
  exact ⟨hchain, ladderUnits_ordered, hsame, honly.mp hsame, hloose,
    hreverse looseUnits_independent⟩

/-- Two units in order, which are exchanged, and exchanged back. -/
theorem dependencyOrder_loose : (looseUnits.map FileDescriptor.name).Nodup ∧
    Ordered looseUnits ∧ dependencyOrder looseUnits = .ok looseUnits.reverse ∧
    looseUnits.reverse ≠ looseUnits ∧ dependencyOrder looseUnits.reverse = .ok looseUnits := by
  refine ⟨by decide, looseUnits_ordered, rfl, fun h => ?_, rfl⟩
  have hnames := congrArg (List.map FileDescriptor.name) h
  revert hnames
  decide

end CellFilter
