import CellFilter.Proofs.Payload.Locality
import CellFilter.Proofs.Payload.Stack
import CellFilter.Proofs.Schema.WellFormed

/-!
# Payloads are always written

Reading a tree of units goes through its units one by one, what a unit depends on first.  A tree
that is laid out from a pool has every unit of the closure just once on this way, and a unit is
named only after it was added.  Laying out is a depth-first walk: the names that are known are those
that the walk has discovered, and the units that were added are those that it has finished.  A name
that is known without being finished belongs to a unit that is still open; it stands behind all that
is to come, so that it is never named below.

* `UnitTree.steps`: how a tree is read; `replant_eq_steps` says so.
* `Grounded`: a unit is named only after it was added.
* `Writes`: how a walk and what is laid out go together; `layOut_writes` keeps it.
* `ofUnit_writes`: the tree of a unit holds its closure.
* `Payload.encode_afterCalls`: **encoding never fails**, whatever calls have made the pool.
-/

namespace CellFilter

open Outcome Relation

/-! ## The steps of a reader -/

/-- What a reader of units comes to: a unit with its descriptor, or the name of a unit alone. -/
inductive UnitStep where
  | added (unit : FileDescriptor)
  | named (name : String)

namespace UnitStep

/-- What a reader does there. -/
def run (pool : SchemaPool) : UnitStep → Except FilterError SchemaPool
  | added unit => Payload.addUnit pool unit.name unit.encode
  | named name => Payload.addUnit pool name []

/-- The unit that is added. -/
def unit? : UnitStep → Option FileDescriptor
  | added unit => some unit
  | named _ => none

/-- The units that are added, in order. -/
def unitsOf (steps : List UnitStep) : List FileDescriptor := steps.filterMap unit?

/-- Whether each unit that is named was added before or is among those that are there. -/
def Grounded (there : List String) : List UnitStep → Prop
  | [] => True
  | added unit :: rest => Grounded (unit.name :: there) rest
  | named name :: rest => name ∈ there ∧ Grounded there rest

theorem unitsOf_append (steps more : List UnitStep) :
    unitsOf (steps ++ more) = unitsOf steps ++ unitsOf more :=
  List.filterMap_append

theorem grounded_append : ∀ {steps more : List UnitStep} {there : List String},
    Grounded there (steps ++ more) ↔ Grounded there steps ∧
      Grounded (((unitsOf steps).map FileDescriptor.name).reverse ++ there) more
  | [], _, _ => by simp [Grounded, unitsOf]
  | added unit :: steps, more, there => by
    have hunits : unitsOf (added unit :: steps) = unit :: unitsOf steps := rfl
    rw [List.cons_append, Grounded, Grounded, grounded_append, hunits, List.map_cons,
      List.reverse_cons, List.append_assoc, List.singleton_append]
  | named name :: steps, more, there => by
    have hunits : unitsOf (named name :: steps) = unitsOf steps := rfl
    rw [List.cons_append, Grounded, Grounded, grounded_append, hunits, and_assoc]

end UnitStep

namespace UnitTree

open UnitStep

mutual

/-- The steps in which a tree is read: what a unit depends on comes before the unit. -/
def steps : UnitTree → List UnitStep
  | .declared unit dependencies => stepsOfAll dependencies ++ [.added unit]
  | .reference name => [.named name]

/-- The steps in which several trees are read. -/
def stepsOfAll : List UnitTree → List UnitStep
  | [] => []
  | tree :: rest => tree.steps ++ stepsOfAll rest

end

mutual

/-- **Reading a tree** that is not nested too deeply is taking its steps. -/
theorem replant_eq_steps : ∀ {tree : UnitTree} {levels : Nat} {pool : SchemaPool},
    tree.nesting < levels → tree.replant levels pool = tree.steps.foldlM run pool
  | _, 0, _, h => absurd h (Nat.not_lt_zero _)
  | .reference name, _ + 1, pool, _ => (bind_pure (Payload.addUnit pool name [])).symm
  | .declared unit trees, levels + 1, pool, h => by
    have hbelow : replantAll levels trees pool = (stepsOfAll trees).foldlM run pool :=
      replantAll_eq_steps (Nat.le_of_lt_succ h)
    rw [replant, hbelow, steps, List.foldlM_append]
    refine bind_congr fun grown => ?_
    exact (bind_pure (Payload.addUnit grown unit.name unit.encode)).symm

theorem replantAll_eq_steps : ∀ {trees : List UnitTree} {levels : Nat} {pool : SchemaPool},
    nestingOfAll trees ≤ levels → replantAll levels trees pool = (stepsOfAll trees).foldlM run pool
  | [], _, _, _ => rfl
  | tree :: trees, levels, pool, h => by
    rw [nestingOfAll, max_le_iff] at h
    rw [replantAll, replant_eq_steps h.1, stepsOfAll, List.foldlM_append]
    exact bind_congr fun _ => replantAll_eq_steps h.2

end

/-! ## Laying out is walking -/

variable {P : SchemaPool} {order : List String} {unit other : FileDescriptor}
  {w w' w'' : Walk} {steps more : List UnitStep} {bound : Nat}

/-- The names next to a name, in the order in which units are laid out. -/
def namesBelow (P : SchemaPool) (order : List String) (name : String) : List String :=
  (sortByRank order ((P.dependenciesOf name).filterMap P.file?)).map FileDescriptor.name

/-- The names of the units of a pool. -/
abbrev unitNames (P : SchemaPool) : List String := P.files.map FileDescriptor.name

theorem mapM_eq_filterMap {α β ε : Type} {find : α → Except ε β} {find? : α → Option β} :
    ∀ {as : List α}, (∀ a ∈ as, ∃ b, find a = .ok b ∧ find? a = some b) →
      as.mapM find = .ok (as.filterMap find?)
  | [], _ => rfl
  | a :: as, h => by
    obtain ⟨b, hb, hb'⟩ := h a List.mem_cons_self
    have hrest := mapM_eq_filterMap fun c hc => h c (List.mem_cons_of_mem a hc)
    rw [List.mapM_cons, hb, ok_bind, hrest, List.filterMap_cons_some hb']
    rfl

theorem directDependencies_eq (hP : P.Built) (hu : unit ∈ P.files) :
    directDependencies P unit = .ok (unit.dependencies.filterMap P.file?) := by
  refine mapM_eq_filterMap fun name hd => ?_
  obtain ⟨other, hi, hname⟩ := hP.exists_dependency hu hd
  have hfile : P.file? name = some other := hP.file?_eq_some.mpr ⟨hi.2.1, hname⟩
  exact ⟨other, by rw [hfile], hfile⟩

theorem namesBelow_eq (hP : P.Built) (hu : unit ∈ P.files) {found : List FileDescriptor}
    (hfound : directDependencies P unit = .ok found) :
    namesBelow P order unit.name = (sortByRank order found).map FileDescriptor.name := by
  rw [directDependencies_eq hP hu] at hfound
  rw [namesBelow, hP.dependenciesOf_eq hu, Except.ok.inj hfound]

theorem mem_namesBelow (hP : P.Built) {name : String} (hu : unit ∈ P.files) :
    name ∈ namesBelow P order unit.name ↔ name ∈ unit.dependencies := by
  rw [namesBelow, hP.dependenciesOf_eq hu]
  simp only [sortByRank, List.mem_map, List.mem_mergeSort, List.mem_filterMap]
  constructor
  · rintro ⟨u, ⟨n, hn, hfile⟩, rfl⟩
    rwa [(hP.file?_eq_some.mp hfile).2]
  · intro hn
    obtain ⟨other, hi, rfl⟩ := hP.exists_dependency hu hn
    exact ⟨other, ⟨other.name, hn, hP.file?_eq_some.mpr ⟨hi.2.1, rfl⟩⟩, rfl⟩

theorem namesBelow_mem (hP : P.Built) (order : List String) :
    ∀ a ∈ unitNames P, ∀ b ∈ namesBelow P order a, b ∈ unitNames P := by
  intro a ha b hb
  obtain ⟨u, hu, rfl⟩ := List.mem_map.mp ha
  obtain ⟨other, hi, rfl⟩ := hP.exists_dependency hu ((mem_namesBelow hP hu).mp hb)
  exact List.mem_map_of_mem hi.2.1

/-- How a walk goes on while units are laid out: the units that are added are those that the walk
finishes, and what is named was finished before. -/
structure Writes (P : SchemaPool) (w w' : Walk) (steps : List UnitStep) : Prop where
  finished : w'.finished = ((unitsOf steps).map FileDescriptor.name).reverse ++ w.finished
  files : ∀ u ∈ unitsOf steps, u ∈ P.files
  grounded : Grounded w.finished steps

namespace Writes

theorem refl (P : SchemaPool) (w : Walk) : Writes P w w [] :=
  ⟨rfl, fun _ hu => absurd hu List.not_mem_nil, trivial⟩

theorem trans (h : Writes P w w' steps) (h' : Writes P w' w'' more) :
    Writes P w w'' (steps ++ more) where
  finished := by
    rw [h'.finished, h.finished, unitsOf_append, List.map_append, List.reverse_append,
      List.append_assoc]
  files := by
    intro u hu
    rw [unitsOf_append] at hu
    rcases List.mem_append.mp hu with hu | hu
    · exact h.files u hu
    · exact h'.files u hu
  grounded := by
    rw [grounded_append, ← h.finished]
    exact ⟨h.grounded, h'.grounded⟩

/-- Finishing a unit after all that it depends on. -/
theorem leave (hu : unit ∈ P.files)
    (h : Writes P ⟨unit.name :: w.discovered, w.finished⟩ w' steps) :
    Writes P w ⟨w'.discovered, unit.name :: w'.finished⟩ (steps ++ [.added unit]) := by
  have hbelow : Writes P w w' steps := ⟨h.finished, h.files, h.grounded⟩
  refine hbelow.trans ⟨rfl, ?_, trivial⟩
  intro u hmem
  rw [List.mem_singleton.mp hmem]
  exact hu

end Writes

/-- Everything that a walk has discovered and not finished stands at a place or behind it. -/
def Behind (P : SchemaPool) (bound : Nat) (w : Walk) : Prop :=
  ∀ n ∈ w.discovered, n ∈ w.finished ∨ bound ≤ P.place n

theorem Behind.grow {next : String → List String} {starts new done : List String}
    (h : Behind P bound w) (hg : Walk.Grows next starts w w' new done) : Behind P bound w' := by
  intro n hn
  rw [hg.discovered, List.mem_append] at hn
  rw [hg.finished, List.mem_append]
  rcases hn with hn | hn
  · exact Or.inl (Or.inl (hg.perm.mem_iff.mpr hn))
  · exact (h n hn).imp_left Or.inr

theorem Behind.enter {name : String} (h : Behind P bound w) (hplace : P.place name < bound) :
    Behind P (P.place name) ⟨name :: w.discovered, w.finished⟩ := by
  intro n hn
  rcases List.mem_cons.mp hn with rfl | hn
  · exact Or.inr le_rfl
  · exact (h n hn).imp_right fun hlate => (hplace.trans_le hlate).le

/-- Units laid out one after the other. -/
theorem mapM_writes {next : String → List String} {visit : Walk → String → Walk} {depth : Nat}
    {run : FileDescriptor → StateT (List String) (Except FilterError) UnitTree}
    (hgrow : ∀ w a, a ∈ unitNames P → Walk.missing (unitNames P) w ≤ depth →
      ∃ new done, Walk.Grows next [a] w (visit w a) new done)
    (hrun : ∀ w u, u ∈ P.files → P.place u.name < bound → Walk.missing (unitNames P) w ≤ depth →
      Behind P bound w → ∃ tree, run u w.discovered = .ok (tree, (visit w u.name).discovered) ∧
        Writes P w (visit w u.name) tree.steps) :
    ∀ (us : List FileDescriptor) (w : Walk), (∀ u ∈ us, u ∈ P.files ∧ P.place u.name < bound) →
      Walk.missing (unitNames P) w ≤ depth → Behind P bound w →
        ∃ trees, us.mapM run w.discovered =
            .ok (trees, ((us.map FileDescriptor.name).foldl visit w).discovered) ∧
          Writes P w ((us.map FileDescriptor.name).foldl visit w) (stepsOfAll trees)
  | [], w, _, _, _ => ⟨[], rfl, .refl P w⟩
  | u :: us, w, hus, hd, hb => by
    obtain ⟨hu, hplace⟩ := hus u List.mem_cons_self
    obtain ⟨new, done, hg⟩ := hgrow w u.name (List.mem_map_of_mem hu) hd
    obtain ⟨tree, hfirst, hwrites⟩ := hrun w u hu hplace hd hb
    have hless : Walk.missing (unitNames P) (visit w u.name) ≤ depth :=
      le_trans (Walk.missing_mono fun b => hg.mono) hd
    obtain ⟨trees, hrest, hwrites'⟩ := mapM_writes hgrow hrun us (visit w u.name)
      (fun v hv => hus v (List.mem_cons_of_mem u hv)) hless (hb.grow hg)
    exact ⟨tree :: trees, mapM_cons_eq_ok hfirst hrest, hwrites.trans hwrites'⟩

/-- **A unit laid out** is a visit of its name. -/
theorem layOut_writes (hP : P.Built) (order : List String) : ∀ (depth : Nat) {bound : Nat}
    (w : Walk) (unit : FileDescriptor), unit ∈ P.files → P.place unit.name < bound →
      Walk.missing (unitNames P) w ≤ depth → Behind P bound w →
        ∃ tree, layOut P order depth unit w.discovered =
            .ok (tree, (Walk.visit (namesBelow P order) depth w unit.name).discovered) ∧
          Writes P w (Walk.visit (namesBelow P order) depth w unit.name) tree.steps := by
  intro depth
  -- a known unit in front of those that are open was finished
  have hnamed : ∀ {bound : Nat} {w : Walk} {unit : FileDescriptor}, P.place unit.name < bound →
      Behind P bound w → unit.name ∈ w.discovered →
        Writes P w w (UnitTree.reference unit.name).steps := by
    intro bound w unit hplace hb hknown
    have hfinished := (hb unit.name hknown).resolve_right (by omega)
    exact ⟨rfl, fun u hu => absurd hu List.not_mem_nil, hfinished, trivial⟩
  induction depth with
  | zero =>
    intro bound w unit hu hplace hd hb
    have hname : unit.name ∈ unitNames P := List.mem_map_of_mem hu
    have hknown : unit.name ∈ w.discovered := by
      by_contra hnew
      exact absurd (Walk.missing_enter hname hnew) (by omega)
    exact ⟨_, rfl, hnamed hplace hb hknown⟩
  | succ depth ih =>
    intro bound w unit hu hplace hd hb
    rw [Walk.visit]
    by_cases hknown : unit.name ∈ w.discovered
    · rw [if_pos (by simpa using hknown)]
      exact ⟨_, layOut_of_known hknown, hnamed hplace hb hknown⟩
    · rw [if_neg (by simpa using hknown)]
      obtain ⟨found, hfound, himports⟩ := directDependencies_eq_ok hP hu
      have hname : unit.name ∈ unitNames P := List.mem_map_of_mem hu
      have hless := Walk.missing_enter hname hknown
      have hbelow : ∀ v ∈ sortByRank order found,
          v ∈ P.files ∧ P.place v.name < P.place unit.name := by
        intro v hv
        have hi := (himports v).mpr (List.mem_mergeSort.mp hv)
        exact ⟨hi.2.1, hP.place_lt hi⟩
      obtain ⟨trees, hruns, hwrites⟩ := mapM_writes
        (Walk.visit_grows (namesBelow_mem hP order) depth) (fun w u hu hp hd hb => ih w u hu hp hd hb)
        (sortByRank order found) ⟨unit.name :: w.discovered, w.finished⟩ hbelow (by omega)
        (hb.enter hplace)
      rw [← namesBelow_eq hP hu hfound] at hruns hwrites
      refine ⟨.declared unit trees, ?_, hwrites.leave hu⟩
      rw [layOut_of_new hknown hfound, hruns]
      rfl

theorem leads_namesBelow (hP : P.Built) (hu : unit ∈ P.files) (order : List String) {name : String} :
    ReflTransGen (Walk.Leads (namesBelow P order)) unit.name name ↔
      ∃ other, ReflTransGen P.Imports unit other ∧ other.name = name := by
  have hleads : Walk.Leads (namesBelow P order) = Walk.Leads P.dependenciesOf := by
    funext a b
    refine propext ?_
    show b ∈ namesBelow P order a ↔ b ∈ P.dependenciesOf a
    cases hfile : P.file? a with
    | none =>
      have hnone : P.dependenciesOf a = [] := by rw [SchemaPool.dependenciesOf, hfile]; rfl
      simp [namesBelow, hnone, sortByRank]
    | some u =>
      obtain ⟨hmem, rfl⟩ := hP.file?_eq_some.mp hfile
      rw [mem_namesBelow hP hmem, hP.dependenciesOf_eq hmem]
  rw [hleads, hP.leads_iff hu]

/-- **The tree of a unit** adds each unit that it rests on once, and names it only afterwards. -/
theorem ofUnit_writes (hP : P.Built) (hu : unit ∈ P.files) : ∃ tree, ofUnit P unit = .ok tree ∧
    ((unitsOf tree.steps).map FileDescriptor.name).Nodup ∧
    (∀ u, u ∈ unitsOf tree.steps ↔ ReflTransGen P.Imports unit u) ∧ Grounded [] tree.steps := by
  obtain ⟨closure, order, hclosure, horder⟩ := hP.order_eq_ok hu
  have hstart : ∀ a ∈ [unit.name], a ∈ unitNames P := by
    intro a ha
    rw [List.mem_singleton.mp ha]
    exact List.mem_map_of_mem hu
  have hdepth : (unitNames P).length ≤ P.files.length + 1 := by simp
  have hnext := namesBelow_mem hP (order.map FileDescriptor.name)
  obtain ⟨tree, hlaid, hwrites⟩ := layOut_writes hP (order.map FileDescriptor.name)
    (P.files.length + 1) .empty unit hu (P.place_lt unit.name)
    (le_trans Walk.missing_empty_le hdepth) fun n hn => absurd hn List.not_mem_nil
  have hfinished : (Walk.ofStarts (namesBelow P (order.map FileDescriptor.name))
      (P.files.length + 1) [unit.name]).finished =
        ((unitsOf tree.steps).map FileDescriptor.name).reverse :=
    hwrites.finished.trans (List.append_nil _)
  obtain ⟨hnodup, hreached⟩ := Walk.ofStarts_discovered hnext hstart hdepth
  have hperm := Walk.ofStarts_finished hnext hstart hdepth
  rw [hfinished] at hperm
  have hadded : ∀ u : FileDescriptor, u.name ∈ (unitsOf tree.steps).map FileDescriptor.name ↔
      ∃ other, ReflTransGen P.Imports unit other ∧ other.name = u.name := by
    intro u
    rw [← leads_namesBelow hP hu (order.map FileDescriptor.name), ← List.mem_reverse,
      hperm.mem_iff, hreached]
    simp
  refine ⟨tree, ?_, List.nodup_reverse.mp (hperm.nodup_iff.mpr hnodup), fun u => ⟨?_, ?_⟩,
    hwrites.grounded⟩
  · rw [ofUnit, hclosure, ok_bind, horder, ok_bind]
    show (layOut P _ _ unit Walk.empty.discovered >>= _) = _
    rw [hlaid]
    rfl
  · intro hmem
    obtain ⟨other, hr, hname⟩ := (hadded u).mp (List.mem_map_of_mem hmem)
    rwa [← hP.eq_of_name (SchemaPool.Imports.mem_of_reaches hr hu) (hwrites.files u hmem) hname]
  · intro hr
    obtain ⟨other, hmem, hname⟩ := List.mem_map.mp ((hadded u).mpr ⟨u, hr, rfl⟩)
    rwa [← hP.eq_of_name (hwrites.files other hmem) (SchemaPool.Imports.mem_of_reaches hr hu) hname]

end UnitTree

/-! ## Payloads -/

namespace Payload

open UnitTree UnitStep

/-- What encoding a schema comes to: the units of the closure, their order and the tree that is
written. -/
structure Written (s : Schema) (units order : List FileDescriptor) (tree : UnitTree) : Prop where
  loop : s.pool.closureLoop s.file.name [s.file.name] [] [] = .ok units
  closure : s.pool.closure s.file.name = .ok units
  first : units.head? = some s.file
  once : (units.map FileDescriptor.name).Nodup
  reached : ∀ u, u ∈ units ↔ ReflTransGen s.pool.Imports s.file u
  ordered : dependencyOrder units = .ok order
  laidOut : ofUnit s.pool s.file = .ok tree
  /-- The reader adds every unit of the closure once, with its descriptor. -/
  added : (unitsOf tree.steps).Perm units
  /-- The reader comes to the name of a unit only after it has added the unit. -/
  grounded : Grounded [] tree.steps
  written : s.isSelfContained = false → body s = .ok (frame s.fullName tree)
  /-- Reading what is written for the tree is taking its steps. -/
  read : ∀ levels pool, tree.nesting < levels → tree.encode.length < UInt64.size →
    Gives (readUnit levels pool) tree.encode (tree.steps.foldlM run pool)

theorem exists_written {s : Schema} (hs : s.pool.Built) :
    ∃ units order tree, Written s units order tree := by
  obtain ⟨hplace, -, -⟩ := Schema.exists_declared hs
  have hu : s.file ∈ s.pool.files := List.mem_of_getElem? hplace
  obtain ⟨units, hclosure, honce, hreached⟩ := hs.closure_eq hu
  obtain ⟨_, order, hsame, horder⟩ := hs.order_eq_ok hu
  obtain rfl := Except.ok.inj (hclosure.symm.trans hsame)
  obtain ⟨tree, htree, hnodup, hmem, hgrounded⟩ := ofUnit_writes hs hu
  have hloop := (s.pool.closure_eq_loop s.file.name).symm.trans hclosure
  refine ⟨units, order, tree, hloop, hclosure,
    SchemaPool.head?_of_closureLoop (hs.file?_eq_some.mpr ⟨hu, rfl⟩) hloop, honce, hreached, horder,
    htree, ?_, hgrounded, ?_, ?_⟩
  · refine (List.perm_ext_iff_of_nodup hnodup.of_map honce.of_map).mpr fun u => ?_
    rw [hmem, hreached]
  · intro hself
    rw [body, if_neg (Bool.eq_false_iff.mp hself), htree]
    rfl
  · intro levels pool hdepth hlen
    rw [← replant_eq_steps hdepth]
    exact gives_readUnit hlen

/-- **Encoding never fails**, whatever calls were made to add units to the pool of the schema, with
or without success.  The closure of the unit that declares the message is found, ordered and written
with each of its units once, before any mention of it. -/
theorem encode_afterCalls (files : List FileDescriptor) (s : Schema)
    (hs : s.pool = SchemaPool.empty.afterCalls files) :
    (∀ level, ∃ payload, encode level s = .ok payload) ∧
      ∃ units order tree, Written s units order tree := by
  have hbuilt : s.pool.Built := by
    rw [hs]
    exact (SchemaPool.Reachable.empty.afterCalls files).built
  obtain ⟨raw, hraw⟩ := exists_body hbuilt
  exact ⟨fun level => ⟨_, by rw [encode, hraw]; rfl⟩, exists_written hbuilt⟩

/-! ### Two units that rest on a third one -/

/-- A unit without messages that rests on the first unit. -/
def sideUnit (name : String) : FileDescriptor where
  name? := some name
  package? := some "demo"
  dependencies := ["base.proto"]
  messages := []
  enums := []
  carried := []

/-- The last unit, which rests on both. -/
def tipUnit : FileDescriptor := Schema.topUnit ["left.proto", "right.proto"]

/-- The pool of the four units. -/
def diamondPool : SchemaPool where
  files := [Schema.baseUnit, sideUnit "left.proto", sideUnit "right.proto", tipUnit]
  messages :=
    [⟨"demo.Base", 0, [0], []⟩,
      ⟨"demo.Top", 3, [0], [⟨"base", "demo.Top.base", 1, .message 0, false, none⟩]⟩]
  enums := []
  types := [("demo.Top", .message 1), ("demo.Base", .message 0)]

/-- The message of the last unit. -/
def diamondSchema : Schema := ⟨diamondPool, 1, Nat.one_lt_two⟩

/-- The last unit is refused before the others are there, and the first one is added twice. -/
def diamondCalls : List FileDescriptor :=
  [tipUnit, Schema.baseUnit, sideUnit "left.proto", Schema.baseUnit, sideUnit "right.proto",
    tipUnit]

/-- The tree of the last unit, in which the first one stands below the third one and is only named
below the second one. -/
def diamondTree : UnitTree := .declared tipUnit
  [.declared (sideUnit "right.proto") [.declared Schema.baseUnit []],
    .declared (sideUnit "left.proto") [.reference "base.proto"]]

theorem afterCalls_diamond : SchemaPool.empty.afterCalls diamondCalls = diamondPool := by rfl

theorem ofUnit_tipUnit : ofUnit diamondPool tipUnit = .ok diamondTree := by
  have hclosure : diamondPool.closure tipUnit.name =
      .ok [tipUnit, sideUnit "left.proto", Schema.baseUnit, sideUnit "right.proto"] := by rfl
  have horder : dependencyOrder
      [tipUnit, sideUnit "left.proto", Schema.baseUnit, sideUnit "right.proto"] =
        .ok [Schema.baseUnit, sideUnit "right.proto", sideUnit "left.proto", tipUnit] := by rfl
  have hfound : directDependencies diamondPool tipUnit =
      .ok [sideUnit "left.proto", sideUnit "right.proto"] := by rfl
  have hsorted : sortByRank ["base.proto", "right.proto", "left.proto", "top.proto"]
      [sideUnit "left.proto", sideUnit "right.proto"] =
        [sideUnit "right.proto", sideUnit "left.proto"] := by
    simp [sortByRank, List.mergeSort, sideUnit, FileDescriptor.name, List.idxOf_cons]
  have hlaid : layOut diamondPool ["base.proto", "right.proto", "left.proto", "top.proto"] 5
      tipUnit [] = .ok (diamondTree, ["left.proto", "base.proto", "right.proto", "top.proto"]) := by
    rw [layOut_of_new (by simp) hfound, hsorted]
    with_unfolding_all rfl
  rw [ofUnit, hclosure, ok_bind, horder, ok_bind]
  show (layOut diamondPool ["base.proto", "right.proto", "left.proto", "top.proto"] 5 tipUnit [] >>=
    _) = _
  rw [hlaid]
  rfl

theorem encode_diamondSchema : (∃ payload, encode 6 diamondSchema = .ok payload) ∧
    ∃ units order, Written diamondSchema units order diamondTree ∧
      diamondTree.steps = [.added Schema.baseUnit, .added (sideUnit "right.proto"),
        .named "base.proto", .added (sideUnit "left.proto"), .added tipUnit] := by
  obtain ⟨hencode, units, order, tree, h⟩ :=
    encode_afterCalls diamondCalls diamondSchema afterCalls_diamond.symm
  obtain rfl : diamondTree = tree := Except.ok.inj (ofUnit_tipUnit.symm.trans h.laidOut)
  exact ⟨hencode 6, units, order, h, rfl⟩

end Payload

end CellFilter
