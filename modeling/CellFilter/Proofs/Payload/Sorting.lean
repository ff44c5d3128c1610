import CellFilter.Proofs.Payload.Order
import Mathlib.Data.List.Find

/-!
# Sorting units by stacks

The order of units can be found by two passes that keep names on a stack.  The first pass goes from
every unit to the units that depend on it.  A name that it meets for the first time stays on the
stack, below the names next to it, and is finished when it is on top again; a name may lie on the
stack several times.  The second pass takes the finished names from the last to the first and goes
back to their dependencies.  A walk back that comes to a second name has found a circle, for all of
its dependencies should have been met before.

* `UnitOrder.finishLoop`, `UnitOrder.secondOf`: the two passes.
* `finishLoop_visit`: what the first pass does with the name on top is what a visit does.
* `ofEdges_eq_sortByStack`: the passes find the order that the walk finds, failures included.
* `dependencyOrder_sorts`: **the order of units** is a topological order; it exists just if there
  are no circles, and a unit that is reported lies on one.
-/

namespace CellFilter

open Outcome Relation

namespace UnitOrder

/-! ## The first pass -/

/-- How far the first pass got: the names that it has not met, and those that it has finished, the
latest first. -/
structure Pass where
  unseen : List String
  finished : List String

namespace Pass

variable {p : Pass} {name : String}

/-- Meets a name for the first time. -/
def meet (p : Pass) (name : String) : Pass := { p with unseen := p.unseen.filter (· ≠ name) }

/-- Finishes a name, unless it was finished before. -/
def finish (p : Pass) (name : String) : Pass :=
  if name ∈ p.finished then p else { p with finished := name :: p.finished }

theorem length_meet (h : name ∈ p.unseen) : (p.meet name).unseen.length < p.unseen.length :=
  List.length_filter_lt_length_iff_exists.mpr ⟨name, h, by simp⟩

@[simp] theorem unseen_finish : (p.finish name).unseen = p.unseen := by
  unfold finish
  split_ifs <;> rfl

end Pass

/-- Looks at the name on top of the stack until there is none.  A name that was not met before stays,
and the names next to it that were not met either go on top; any other name leaves the stack and is
finished then, if it was not before.  A name that is next to itself ends the pass. -/
def finishLoop (next : String → List String) (stack : List String) (p : Pass) :
    Except String Pass :=
  match stack with
  | [] => .ok p
  | name :: rest =>
    if name ∈ p.unseen then
      if name ∈ next name then .error name
      else finishLoop next ((next name).filter (· ∈ (p.meet name).unseen) ++ name :: rest)
        (p.meet name)
    else finishLoop next rest (p.finish name)
termination_by (p.unseen.length, stack.length)
decreasing_by
  · exact Prod.Lex.left _ _ (Pass.length_meet ‹_›)
  · rw [Pass.unseen_finish]
    exact Prod.Lex.right _ (by simp)

/-- The first pass, from each name that was not met before. -/
def finishAll (next : String → List String) (starts : List String) (p : Pass) :
    Except String Pass :=
  starts.foldlM (fun p name => if name ∈ p.unseen then finishLoop next [name] p else .ok p) p

/-! ## The second pass -/

/-- The first name on the stack that was not met before, with the stack and the names met after it;
the names next to it that were not met either have gone on top of the stack. -/
def nextOf (next : String → List String) :
    (stack seen : List String) → Option (String × List String × List String)
  | [], _ => none
  | name :: rest, seen =>
    if name ∈ seen then nextOf next rest seen
    else some (name, (next name).filter (· ∉ name :: seen) ++ rest, name :: seen)

/-- Walks from each of the names in turn, and stops at the second name of a walk. -/
def secondOf (next : String → List String) : (seen names : List String) → Option String
  | _, [] => none
  | seen, name :: rest =>
    match nextOf next [name] seen with
    | none => secondOf next seen rest
    | some (_, stack, seen) =>
      match nextOf next stack seen with
      | none => secondOf next seen rest
      | some (second, _) => some second

/-- The finished names, unless the second pass stops. -/
def checkBack (edges : List (String × String)) (finished : List String) :
    Except String (List String) :=
  match secondOf (dependencies edges) [] finished with
  | some name => .error name
  | none => .ok finished

/-- The names in order, or the name of a unit on a circle, by both passes. -/
def sortByStack (names : List String) (edges : List (String × String)) :
    Except String (List String) := do
  let pass ← finishAll (dependents edges) names ⟨names, []⟩
  checkBack edges pass.finished

/-! ## The first pass and the walk -/

section

variable {next : String → List String} {U : List String} {w w' : Walk} {a : String}
  {rest : List String}

/-- Where the first pass is when a walk over some names has got so far. -/
def passOf (U : List String) (w : Walk) : Pass := ⟨U.filter (· ∉ w.discovered), w.finished⟩

theorem mem_unseen : a ∈ (passOf U w).unseen ↔ a ∈ U ∧ a ∉ w.discovered := by
  simp [passOf]

/-- The first of the names that is next to itself, if there is one, ends the pass. -/
def stoppedAt (next : String → List String) (names : List String) (go : Except String Pass) :
    Except String Pass :=
  match names.find? fun name => name ∈ next name with
  | some name => .error name
  | none => go

theorem stoppedAt_append (l l' : List String) (go : Except String Pass) :
    stoppedAt next (l ++ l') go = stoppedAt next l (stoppedAt next l' go) := by
  unfold stoppedAt
  rw [List.find?_append]
  cases l.find? fun name => name ∈ next name <;> rfl

theorem stoppedAt_cons (a : String) (l : List String) (go : Except String Pass) :
    stoppedAt next (a :: l) go = if a ∈ next a then .error a else stoppedAt next l go := by
  unfold stoppedAt
  rw [List.find?_cons]
  by_cases ha : a ∈ next a <;> simp [ha]

/-- A name that was finished before leaves the stack. -/
theorem finishLoop_finished (hdiscovered : a ∈ w.discovered) (hfinished : a ∈ w.finished) :
    finishLoop next (a :: rest) (passOf U w) = finishLoop next rest (passOf U w) := by
  have hold : a ∉ (passOf U w).unseen := fun h => (mem_unseen.mp h).2 hdiscovered
  rw [finishLoop, if_neg hold, Pass.finish, if_pos (show a ∈ (passOf U w).finished from hfinished)]

/-- A name that was met before is finished when it is on top again. -/
theorem finishLoop_open (hdiscovered : a ∈ w.discovered) (hopen : a ∉ w.finished) :
    finishLoop next (a :: rest) (passOf U w) =
      finishLoop next rest (passOf U ⟨w.discovered, a :: w.finished⟩) := by
  have hold : a ∉ (passOf U w).unseen := fun h => (mem_unseen.mp h).2 hdiscovered
  rw [finishLoop, if_neg hold, Pass.finish, if_neg (show a ∉ (passOf U w).finished from hopen)]
  rfl

/-- A name that is met for the first time. -/
theorem finishLoop_new (ha : a ∈ U) (hnew : a ∉ w.discovered) :
    finishLoop next (a :: rest) (passOf U w) = if a ∈ next a then .error a else
      finishLoop next
        ((next a).filter (· ∈ (passOf U ⟨a :: w.discovered, w.finished⟩).unseen) ++ a :: rest)
        (passOf U ⟨a :: w.discovered, w.finished⟩) := by
  have hentered : (passOf U w).meet a = passOf U ⟨a :: w.discovered, w.finished⟩ := by
    simp only [passOf, Pass.meet, List.filter_filter, List.mem_cons, not_or, Bool.decide_and]
  rw [finishLoop, if_pos (mem_unseen.mpr ⟨ha, hnew⟩), hentered]

/-- What the first pass does with names on top of the stack when the walk visits them. -/
structure Passes (next : String → List String) (U names top : List String) (w w' : Walk)
    (new done : List String) : Prop where
  grows : Walk.Grows next names w w' new done
  loop : ∀ rest, finishLoop next (top ++ rest) (passOf U w) =
    stoppedAt next new.reverse (finishLoop next rest (passOf U w'))

/-- Names stand where the first pass can take them off again: a name of the list that was not met
when the list went on the stack and is met by now is finished. -/
structure Awaited (unseen names : List String) (w : Walk) : Prop where
  seen : ∀ b ∈ names, b ∉ unseen → b ∈ w.discovered
  closed : ∀ b ∈ names, b ∈ unseen → b ∈ w.discovered → b ∈ w.finished

theorem Awaited.of_grows {unseen names starts new done : List String}
    (h : Awaited unseen (a :: names) w) (hgrows : Walk.Grows next starts w w' new done) :
    Awaited unseen names w' where
  seen b hb hu := hgrows.mono (h.seen b (List.mem_cons_of_mem a hb) hu)
  closed b hb hu hd := by
    rw [hgrows.discovered] at hd
    rw [hgrows.finished]
    rcases List.mem_append.mp hd with hd | hd
    · exact List.mem_append_left _ (hgrows.perm.mem_iff.mpr hd)
    · exact List.mem_append_right _ (h.closed b (List.mem_cons_of_mem a hb) hu hd)

theorem finished_of_grows {starts new done : List String}
    (h : ∀ b ∈ w.finished, b ∈ w.discovered) (hgrows : Walk.Grows next starts w w' new done) :
    ∀ b ∈ w'.finished, b ∈ w'.discovered := by
  intro b hb
  rw [hgrows.finished] at hb
  rcases List.mem_append.mp hb with hb | hb
  · rw [hgrows.discovered]
    exact List.mem_append_left _ (hgrows.perm.mem_iff.mp hb)
  · exact hgrows.mono (h b hb)

/-- Names that went on the stack together, given what the pass does with one of them. -/
theorem finishLoop_foldl {visit : Walk → String → Walk} {depth : Nat} {unseen : List String}
    (hskip : ∀ w a, a ∈ w.discovered → visit w a = w)
    (hvisit : ∀ w a, a ∈ U → Walk.missing U w ≤ depth → (a ∈ w.discovered → a ∈ w.finished) →
      (∀ b ∈ w.finished, b ∈ w.discovered) →
        ∃ new done, Passes next U [a] [a] w (visit w a) new done) :
    ∀ (names : List String) (w : Walk), (∀ a ∈ names, a ∈ U) → Walk.missing U w ≤ depth →
      Awaited unseen names w → (∀ b ∈ w.finished, b ∈ w.discovered) →
        ∃ new done, Passes next U names (names.filter (· ∈ unseen)) w (names.foldl visit w) new done
  | [], w, _, _, _, _ => ⟨[], [], .refl next (by simp), fun rest => rfl⟩
  | a :: names, w, hU, hd, hawaited, hfinished => by
    have hrest : ∀ b ∈ names, b ∈ U := fun b hb => hU b (List.mem_cons_of_mem a hb)
    by_cases ha : a ∈ unseen
    · obtain ⟨new, done, hfirst⟩ := hvisit w a (hU a List.mem_cons_self) hd
        (hawaited.closed a List.mem_cons_self ha) hfinished
      have hless := Walk.missing_mono (U := U) fun b => hfirst.grows.mono
      obtain ⟨new', done', hothers⟩ := finishLoop_foldl hskip hvisit names (visit w a) hrest
        (hless.trans hd) (hawaited.of_grows hfirst.grows) (finished_of_grows hfinished hfirst.grows)
      refine ⟨_, _, hfirst.grows.trans hothers.grows, fun rest => ?_⟩
      rw [List.filter_cons_of_pos (by simpa using ha), List.cons_append, List.reverse_append,
        stoppedAt_append, List.foldl_cons, ← hothers.loop rest]
      exact hfirst.loop _
    · have hknown := hawaited.seen a List.mem_cons_self ha
      have hsame : Walk.Grows next [a] w w [] [] := .refl next (by simpa using hknown)
      obtain ⟨new, done, hothers⟩ := finishLoop_foldl hskip hvisit names w hrest hd
        (hawaited.of_grows hsame) hfinished
      rw [List.filter_cons_of_neg (by simpa using ha), List.foldl_cons, hskip w a hknown]
      refine ⟨new, done, ?_, hothers.loop⟩
      simpa using hsame.trans hothers.grows

theorem visit_of_mem {depth : Nat} (h : a ∈ w.discovered) : Walk.visit next depth w a = w := by
  cases depth with
  | zero => rfl
  | succ depth => rw [Walk.visit, if_pos (by simpa using h)]

/-- **A name on top of the stack** leads the first pass through what a visit does. -/
theorem finishLoop_visit (hU : ∀ a ∈ U, ∀ b ∈ next a, b ∈ U) : ∀ (depth : Nat) (w : Walk)
    (a : String), a ∈ U → Walk.missing U w ≤ depth → (a ∈ w.discovered → a ∈ w.finished) →
      (∀ b ∈ w.finished, b ∈ w.discovered) →
        ∃ new done, Passes next U [a] [a] w (Walk.visit next depth w a) new done := by
  intro depth
  induction depth with
  | zero =>
    intro w a ha hd hclosed _
    -- no depth is left only when every name was met
    have hknown : a ∈ w.discovered := by
      by_contra hnew
      exact absurd (Walk.missing_enter ha hnew) (by omega)
    exact ⟨[], [], .refl next (by simpa using hknown), fun rest =>
      finishLoop_finished hknown (hclosed hknown)⟩
  | succ depth ih =>
    intro w a ha hd hclosed hfinished
    by_cases hknown : a ∈ w.discovered
    · rw [visit_of_mem hknown]
      exact ⟨[], [], .refl next (by simpa using hknown), fun rest =>
        finishLoop_finished hknown (hclosed hknown)⟩
    · have hless := Walk.missing_enter ha hknown
      have hawaited : Awaited (passOf U ⟨a :: w.discovered, w.finished⟩).unseen (next a)
          ⟨a :: w.discovered, w.finished⟩ := by
        refine ⟨fun b hb hu => ?_, fun b _ hu hd => absurd hd (mem_unseen.mp hu).2⟩
        by_contra hnew
        exact hu (mem_unseen.mpr ⟨hU a ha b hb, hnew⟩)
      obtain ⟨new, done, h⟩ := finishLoop_foldl (fun _ _ => visit_of_mem) ih (next a)
        ⟨a :: w.discovered, w.finished⟩ (hU a ha) (by omega) hawaited
        fun b hb => List.mem_cons_of_mem a (hfinished b hb)
      have hleft : a ∉ ((next a).foldl (Walk.visit next depth)
          ⟨a :: w.discovered, w.finished⟩).finished := by
        rw [h.grows.finished, List.mem_append, not_or]
        exact ⟨fun hdone => h.grows.fresh a (h.grows.perm.mem_iff.mp hdone) List.mem_cons_self,
          fun hold => hknown (hfinished a hold)⟩
      refine ⟨new ++ [a], a :: done, ?_, fun rest => ?_⟩
      · rw [Walk.visit, if_neg (by simpa using hknown)]
        exact h.grows.enter hknown
      · rw [Walk.visit, if_neg (by simpa using hknown), List.singleton_append,
          finishLoop_new ha hknown, List.reverse_append, List.reverse_singleton,
          List.singleton_append, stoppedAt_cons, h.loop,
          finishLoop_open (h.grows.mono List.mem_cons_self) hleft]

theorem stoppedAt_bind (l : List String) (p : Pass) (f : Pass → Except String Pass) :
    stoppedAt next l (.ok p) >>= f = stoppedAt next l (f p) := by
  unfold stoppedAt
  cases l.find? fun name => name ∈ next name <;> rfl

/-- The first pass from each of the names that were not met before. -/
theorem finishAll_eq (hU : ∀ a ∈ U, ∀ b ∈ next a, b ∈ U) {depth : Nat} :
    ∀ (starts : List String) (w : Walk), (∀ a ∈ starts, a ∈ U) → Walk.missing U w ≤ depth →
      (∀ b, b ∈ w.discovered ↔ b ∈ w.finished) → ∃ new,
        (starts.foldl (Walk.visit next depth) w).discovered = new ++ w.discovered ∧
          finishAll next starts (passOf U w) =
            stoppedAt next new.reverse (.ok (passOf U (starts.foldl (Walk.visit next depth) w)))
  | [], w, _, _, _ => ⟨[], rfl, rfl⟩
  | a :: starts, w, hstarts, hd, hclosed => by
    have ha := hstarts a List.mem_cons_self
    have hrest : ∀ b ∈ starts, b ∈ U := fun b hb => hstarts b (List.mem_cons_of_mem a hb)
    rw [List.foldl_cons]
    simp only [finishAll, List.foldlM_cons]
    by_cases hknown : a ∈ w.discovered
    · have hold : a ∉ (passOf U w).unseen := fun h => (mem_unseen.mp h).2 hknown
      rw [visit_of_mem hknown, if_neg hold, ok_bind]
      exact finishAll_eq hU starts w hrest hd hclosed
    · obtain ⟨new, done, hfirst⟩ := finishLoop_visit hU depth w a ha hd (hclosed a).mp
        fun b => (hclosed b).mpr
      have hless := Walk.missing_mono (U := U) fun b => hfirst.grows.mono
      have hloop := hfirst.loop []
      rw [List.append_nil, finishLoop] at hloop
      obtain ⟨new', hnew', hothers⟩ := finishAll_eq hU starts (Walk.visit next depth w a) hrest
        (hless.trans hd) fun b => by
          rw [hfirst.grows.discovered, hfirst.grows.finished, List.mem_append, List.mem_append,
            hclosed, hfirst.grows.perm.mem_iff]
      refine ⟨new' ++ new, by rw [hnew', hfirst.grows.discovered, List.append_assoc], ?_⟩
      rw [if_pos (mem_unseen.mpr ⟨ha, hknown⟩), hloop, stoppedAt_bind, List.reverse_append,
        stoppedAt_append, ← hothers]
      rfl

/-- **The first pass** finishes the names that the walk from all of them finishes, in the same
order, unless the walk discovers a name that is next to itself. -/
theorem finishAll_names (hU : ∀ a ∈ U, ∀ b ∈ next a, b ∈ U) :
    finishAll next U ⟨U, []⟩ =
      stoppedAt next (Walk.ofStarts next U.length U).discovered.reverse
        (.ok (passOf U (Walk.ofStarts next U.length U))) := by
  have hstart : (⟨U, []⟩ : Pass) = passOf U .empty := by
    simp [passOf, Walk.empty]
  obtain ⟨new, hnew, hpass⟩ := finishAll_eq hU U .empty (fun _ ha => ha) Walk.missing_empty_le
    fun _ => Iff.rfl
  have hdiscovered : (Walk.ofStarts next U.length U).discovered = new :=
    hnew.trans (List.append_nil new)
  rw [hstart, hpass, hdiscovered]
  rfl

end

/-! ## The second pass and misplaced names -/

section

variable {es : List (String × String)} {next : String → List String} {seen : List String}

/-- The first of the names that were not met before is the next one. -/
theorem fst_nextOf (l : List String) :
    (nextOf next (l.filter (· ∉ seen)) seen).map Prod.fst = l.find? (· ∉ seen) := by
  induction l with
  | nil => rfl
  | cons a l ih =>
    by_cases ha : a ∈ seen
    · rw [List.filter_cons_of_neg (by simpa using ha), List.find?_cons_of_neg (by simpa using ha)]
      exact ih
    · rw [List.filter_cons_of_pos (by simpa using ha), List.find?_cons_of_pos (by simpa using ha),
        nextOf, if_neg ha]
      rfl

/-- **The second pass** stops at a dependency that does not stand before its dependent. -/
theorem secondOf_eq : ∀ {l seen : List String}, l.Nodup → (∀ name ∈ l, name ∉ seen) →
    (∀ name ∈ l, name ∉ dependencies es name) →
      secondOf (dependencies es) seen l = firstMisplaced es seen l
  | [], _, _, _, _ => rfl
  | name :: rest, seen, hn, hseen, hself => by
    obtain ⟨hname, hrest⟩ := List.nodup_cons.mp hn
    have hnew := hseen name List.mem_cons_self
    have hfresh : ∀ b ∈ rest, b ∉ name :: seen := fun b hb => by
      rw [List.mem_cons, not_or]
      exact ⟨fun h => hname (h ▸ hb), hseen b (List.mem_cons_of_mem name hb)⟩
    have hothers := secondOf_eq hrest hfresh fun b hb => hself b (List.mem_cons_of_mem name hb)
    have hfind : (dependencies es name).find? (· ∉ name :: seen) =
        (dependencies es name).find? fun d => !seen.contains d := by
      refine List.find?_congr fun d hd => ?_
      have hne : d ≠ name := fun h => hself name List.mem_cons_self (h ▸ hd)
      simp [hne]
    have hsecond : (nextOf (dependencies es) ((dependencies es name).filter (· ∉ name :: seen))
        (name :: seen)).map Prod.fst = (dependencies es name).find? (· ∉ name :: seen) :=
      fst_nextOf _
    rw [secondOf, nextOf, if_neg hnew, List.append_nil, firstMisplaced, ← hfind, ← hsecond]
    dsimp only
    cases nextOf (dependencies es)
      ((dependencies es name).filter (· ∉ name :: seen)) (name :: seen) with
    | none => exact hothers
    | some found => rfl

end

/-- **Both passes** find the order that the walk finds, or report the same name. -/
theorem ofEdges_eq_sortByStack (units : List FileDescriptor) :
    ofEdges (names units) (edges units) = sortByStack (names units) (edges units) := by
  have hstep : ∀ a ∈ names units, ∀ b ∈ dependents (edges units) a, b ∈ names units :=
    fun _ _ _ => mem_names_of_dependents
  obtain ⟨hnodup, -, -⟩ := walk_spec units
  have hperm := Walk.ofStarts_finished hstep (fun a ha => ha) le_rfl
  have hself : (fun name => (edges units).contains (name, name)) =
      fun name => decide (name ∈ dependents (edges units) name) := by
    funext name
    simp [mem_dependents]
  rw [ofEdges, sortByStack, finishAll_names hstep, hself]
  unfold stoppedAt
  cases hloop : (Walk.ofStarts (dependents (edges units)) (names units).length
      (names units)).discovered.reverse.find?
        fun name => decide (name ∈ dependents (edges units) name) with
  | some name => rfl
  | none =>
    have hnext : ∀ name ∈ (walk units).finished, name ∉ dependencies (edges units) name := by
      intro name hname hd
      have hopen := List.find?_eq_none.mp hloop name
        (List.mem_reverse.mpr (hperm.mem_iff.mp hname))
      exact hopen (by simpa using mem_dependents.mpr (mem_dependencies.mp hd))
    have hpass := secondOf_eq hnodup (fun _ _ => List.not_mem_nil) hnext
    rw [ok_bind]
    show _ = checkBack (edges units) (walk units).finished
    rw [checkBack, hpass]
    rfl

end UnitOrder

open UnitOrder

/-! ## The order of units -/

/-- The units in order by both passes; of several units of a name only the first one stays. -/
def orderByStack (units : List FileDescriptor) : Except FilterError (List FileDescriptor) :=
  ((sortByStack (names units) (edges units)).mapError FilterError.dependencyCycle).map fun order =>
    order.filterMap fun name => units.find? fun u => u.name == name

/-- One of the units names one of them, or itself, as a dependency. -/
def DependsOn (units : List FileDescriptor) (unit other : FileDescriptor) : Prop :=
  unit ∈ units ∧ other ∈ units ∧ other.name ∈ unit.dependencies

section

variable {units order : List FileDescriptor} {unit other : FileDescriptor} {a b : String}

theorem leads_iff : Walk.Leads (dependents (edges units)) a b ↔
    ∃ unit other, DependsOn units unit other ∧ unit.name = b ∧ other.name = a := by
  rw [Walk.Leads, mem_dependents, mem_edges]
  constructor
  · rintro ⟨unit, hu, rfl, hd, hlisted⟩
    obtain ⟨other, ho, rfl⟩ := List.mem_map.mp hlisted
    exact ⟨unit, other, ⟨hu, ho, hd⟩, rfl, rfl⟩
  · rintro ⟨unit, other, ⟨hu, ho, hd⟩, rfl, rfl⟩
    exact ⟨unit, hu, rfl, hd, List.mem_map_of_mem ho⟩

/-- A chain of names is a chain of units, the other way round, if the names are different. -/
theorem dependsOn_of_leads (hn : (units.map FileDescriptor.name).Nodup)
    (h : TransGen (Walk.Leads (dependents (edges units))) a b) :
    ∃ unit other, TransGen (DependsOn units) unit other ∧ unit ∈ units ∧ other ∈ units ∧
      unit.name = b ∧ other.name = a := by
  induction h with
  | single hab =>
    obtain ⟨unit, other, hdepends, hb, ha⟩ := leads_iff.mp hab
    exact ⟨unit, other, .single hdepends, hdepends.1, hdepends.2.1, hb, ha⟩
  | tail _ hbc ih =>
    obtain ⟨middle, other, hchain, hm, ho, rfl, rfl⟩ := ih
    obtain ⟨unit, middle', hdepends, rfl, hmiddle⟩ := leads_iff.mp hbc
    obtain rfl := List.inj_on_of_nodup_map hn hdepends.2.1 hm hmiddle
    exact ⟨unit, other, TransGen.head hdepends hchain, hdepends.1, ho, rfl, rfl⟩

/-- An order of units with different names holds just these units. -/
theorem perm_of_order (hn : (units.map FileDescriptor.name).Nodup)
    (h : dependencyOrder units = .ok order) : order.Perm units := by
  have hfind : ∀ unit ∈ units, (units.find? fun u => u.name == unit.name) = some unit := by
    intro unit hu
    cases hf : units.find? fun u => u.name == unit.name with
    | none => exact absurd (List.find?_eq_none.mp hf unit hu) (by simp)
    | some found =>
      have hname : found.name = unit.name := by simpa using List.find?_some hf
      rw [List.inj_on_of_nodup_map hn (List.mem_of_find?_eq_some hf) hu hname]
  refine (List.perm_ext_iff_of_nodup (nodup_dependencyOrder h).of_map hn.of_map).mpr fun unit => ?_
  rw [mem_dependencyOrder h]
  exact ⟨List.mem_of_find?_eq_some, hfind unit⟩

/-- In an order every unit stands behind the units that it depends on. -/
theorem before_of_dependsOn (hn : (units.map FileDescriptor.name).Nodup)
    (h : dependencyOrder units = .ok order) {before after : List FileDescriptor}
    (hsplit : order = before ++ unit :: after) (hdepends : DependsOn units unit other) :
    other ∈ before := by
  have hsplit' : order.map FileDescriptor.name =
      before.map FileDescriptor.name ++ unit.name :: after.map FileDescriptor.name := by
    rw [hsplit, List.map_append, List.map_cons]
  have hdependency : other.name ∈ dependencies (edges units) unit.name :=
    mem_dependencies.mpr (mem_dependents.mp (leads_iff.mpr ⟨unit, other, hdepends, rfl, rfl⟩))
  have hplaced := (ofEdges_eq_ok (ofEdges_of_order h)).2
  rcases before_of_firstMisplaced hplaced hsplit' _ hdependency with hname | hname
  · obtain ⟨found, hfound, hname⟩ := List.mem_map.mp hname
    have hunits : found ∈ units := (perm_of_order hn h).mem_iff.mp
      (hsplit ▸ List.mem_append_left _ hfound)
    rwa [← List.inj_on_of_nodup_map hn hunits hdepends.2.1 hname]
  · exact absurd hname List.not_mem_nil

/-- What a unit of an order rests on stands before it. -/
theorem before_of_chain (hn : (units.map FileDescriptor.name).Nodup)
    (h : dependencyOrder units = .ok order) (hchain : TransGen (DependsOn units) unit other) :
    ∀ {before after : List FileDescriptor}, order = before ++ unit :: after → other ∈ before := by
  induction hchain using TransGen.head_induction_on with
  | single hdepends => exact fun hsplit => before_of_dependsOn hn h hsplit hdepends
  | head hdepends _ ih =>
    intro before after hsplit
    obtain ⟨front, back, rfl⟩ := List.append_of_mem (before_of_dependsOn hn h hsplit hdepends)
    rw [List.append_assoc, List.cons_append] at hsplit
    exact List.mem_append_left _ (ih hsplit)

/-- Units with an order do not rest on each other in a circle. -/
theorem not_circular_of_order (hn : (units.map FileDescriptor.name).Nodup)
    (h : dependencyOrder units = .ok order) (unit : FileDescriptor) :
    ¬ TransGen (DependsOn units) unit unit := by
  intro hcircle
  obtain ⟨other, hdepends, -⟩ := TransGen.head'_iff.mp hcircle
  obtain ⟨before, after, hsplit⟩ :=
    List.append_of_mem ((perm_of_order hn h).mem_iff.mpr hdepends.1)
  have htwice := (nodup_dependencyOrder h).of_map
  rw [hsplit, List.nodup_append'] at htwice
  exact htwice.2.2 (before_of_chain hn h hcircle hsplit) List.mem_cons_self

/-- A unit that is reported lies on a circle. -/
theorem circular_of_error (hn : (units.map FileDescriptor.name).Nodup) {e : FilterError}
    (h : dependencyOrder units = .error e) :
    ∃ unit, e = .dependencyCycle unit.name ∧ TransGen (DependsOn units) unit unit := by
  unfold dependencyOrder at h
  split at h
  · cases h
  · rename_i name hname
    cases h
    obtain ⟨unit, other, hchain, hu, ho, rfl, hsame⟩ := dependsOn_of_leads hn (ofEdges_eq_error hname)
    obtain rfl := List.inj_on_of_nodup_map hn ho hu hsame
    exact ⟨other, rfl, hchain⟩

/-- **The order of units** with different names, which both passes find, exists just if no unit
rests on itself.  Then it holds the units it was made from, each behind the listed units that it
depends on; otherwise a unit is reported that rests on itself. -/
theorem dependencyOrder_sorts (hn : (units.map FileDescriptor.name).Nodup) :
    dependencyOrder units = orderByStack units ∧
    ((∃ order, dependencyOrder units = .ok order) ↔
      ∀ unit, ¬ TransGen (DependsOn units) unit unit) ∧
    (∀ order, dependencyOrder units = .ok order → order.Perm units ∧
      ∀ before unit after, order = before ++ unit :: after →
        ∀ other, DependsOn units unit other → other ∈ before) ∧
    (∀ e, dependencyOrder units = .error e →
      ∃ unit, e = .dependencyCycle unit.name ∧ TransGen (DependsOn units) unit unit) := by
  refine ⟨?_, ⟨?_, fun hacyclic => ?_⟩, fun order h => ⟨perm_of_order hn h, ?_⟩,
    fun e => circular_of_error hn⟩
  · rw [dependencyOrder, orderByStack, ← ofEdges_eq_sortByStack]
    cases ofEdges (names units) (edges units) <;> rfl
  · rintro ⟨order, h⟩
    exact not_circular_of_order hn h
  · cases h : dependencyOrder units with
    | ok order => exact ⟨order, rfl⟩
    | error e =>
      obtain ⟨unit, -, hcircle⟩ := circular_of_error hn h
      exact absurd hcircle (hacyclic unit)
  · exact fun before unit after hsplit other => before_of_dependsOn hn h hsplit

end

/-- A unit that declares nothing. -/
def plainUnit (name : String) (dependencies : List String) : FileDescriptor where
  name? := some name
  package? := none
  dependencies := dependencies
  messages := []
  enums := []
  carried := []

/-- A unit that rests on all others; it names one of them twice and one that is not listed. -/
def crossedUnits : List FileDescriptor :=
  [plainUnit "top" ["left", "right", "left", "far"], plainUnit "left" ["base"],
    plainUnit "right" ["base"], plainUnit "base" []]

/-- Two units that depend on each other, one that depends on them and one that does not. -/
def knottedUnits : List FileDescriptor :=
  [plainUnit "top" ["left", "ring"], plainUnit "left" [], plainUnit "ring" ["knot", "left"],
    plainUnit "knot" ["ring"]]

theorem dependencyOrder_sorts_crossed : (crossedUnits.map FileDescriptor.name).Nodup ∧
    (knottedUnits.map FileDescriptor.name).Nodup ∧
    (dependencyOrder crossedUnits).map (List.map FileDescriptor.name) =
      .ok ["base", "right", "left", "top"] ∧
    (∀ unit, ¬ TransGen (DependsOn crossedUnits) unit unit) ∧
    dependencyOrder knottedUnits = .error (.dependencyCycle "knot") ∧
    ∃ unit, unit.name = "knot" ∧ TransGen (DependsOn knottedUnits) unit unit := by
  have hcrossed : (crossedUnits.map FileDescriptor.name).Nodup := by decide
  have hknotted : (knottedUnits.map FileDescriptor.name).Nodup := by decide
  have herror : dependencyOrder knottedUnits = .error (.dependencyCycle "knot") := rfl
  obtain ⟨-, hacyclic, -⟩ := dependencyOrder_sorts hcrossed
  obtain ⟨-, -, -, hreported⟩ := dependencyOrder_sorts hknotted
  obtain ⟨unit, hname, hcircle⟩ := hreported _ herror
  exact ⟨hcrossed, hknotted, rfl, hacyclic.mp ⟨_, rfl⟩, herror, unit,
    (FilterError.dependencyCycle.inj hname).symm, hcircle⟩

end CellFilter
