import CellFilter.Payload.Order
import CellFilter.Proofs.Outcome
import CellFilter.Proofs.Payload.Walk

/-!
# The closure of a unit by a stack

The closure of a unit can be found by a loop that takes names from a stack.  A name that was seen
before is passed over; the dependencies of any other one go on top of the stack, in order.  The loop
comes to an end, since it either sees a unit for the first time or makes the stack shorter, and it
comes to the units in the order in which a depth-first walk discovers them.

* `SchemaPool.closureLoop`: the loop.
* `closureLoop_visit`, `closureLoop_foldl`: what the loop does with the names on top of the stack.
* `closure_eq_loop`: **the closure** is what the loop finds, in any pool, failures included.
-/

namespace CellFilter

open Outcome

namespace SchemaPool

/-- The unit of a name that the closure of `root` comes to. -/
def fileFor (pool : SchemaPool) (root name : String) : Except FilterError FileDescriptor :=
  match pool.file? name with
  | some unit => .ok unit
  | none => .error (.undeclaredDependency root name)

theorem mem_names_of_file? {pool : SchemaPool} {name : String} {unit : FileDescriptor}
    (h : pool.file? name = some unit) : name ∈ pool.files.map FileDescriptor.name := by
  have hname : unit.name = name := by simpa using List.find?_some h
  rw [← hname]
  exact List.mem_map_of_mem (List.mem_of_find?_eq_some h)

/-- Takes one name after the other from a stack, given the names seen and the units found so far. -/
def closureLoop (pool : SchemaPool) (root : String) (stack seen : List String)
    (units : List FileDescriptor) : Except FilterError (List FileDescriptor) :=
  match stack with
  | [] => .ok units
  | name :: rest =>
    if seen.contains name then pool.closureLoop root rest seen units
    else match _ : pool.file? name with
      | none => .error (.undeclaredDependency root name)
      | some unit =>
        pool.closureLoop root (unit.dependencies ++ rest) (name :: seen) (units ++ [unit])
termination_by (Walk.missing (pool.files.map FileDescriptor.name) ⟨seen, []⟩, stack.length)
decreasing_by
  · exact Prod.Lex.right _ (by simp)
  · rename_i hnew hfile
    exact Prod.Lex.left _ _ (Walk.missing_enter (w := ⟨seen, []⟩) (mem_names_of_file? hfile)
      (by simpa using hnew))

variable {pool : SchemaPool} {root name : String} {rest seen : List String}
  {units : List FileDescriptor} {unit : FileDescriptor}

theorem closureLoop_nil : pool.closureLoop root [] seen units = .ok units := by
  rw [closureLoop]

theorem closureLoop_seen (h : name ∈ seen) :
    pool.closureLoop root (name :: rest) seen units = pool.closureLoop root rest seen units := by
  rw [closureLoop, if_pos (by simpa using h)]

theorem closureLoop_missing (h : name ∉ seen) (hfile : pool.file? name = none) :
    pool.closureLoop root (name :: rest) seen units =
      .error (.undeclaredDependency root name) := by
  rw [closureLoop, if_neg (by simpa using h)]
  split
  · rfl
  · rename_i found
    rw [hfile] at found
    cases found

theorem closureLoop_found (h : name ∉ seen) (hfile : pool.file? name = some unit) :
    pool.closureLoop root (name :: rest) seen units =
      pool.closureLoop root (unit.dependencies ++ rest) (name :: seen) (units ++ [unit]) := by
  rw [closureLoop, if_neg (by simpa using h)]
  split
  · rename_i found
    rw [hfile] at found
    cases found
  · rename_i other found
    rw [hfile] at found
    cases found
    rfl

/-- The loop only adds to the units that were found. -/
theorem closureLoop_grows {stack : List String} {found : List FileDescriptor}
    (h : pool.closureLoop root stack seen units = .ok found) : units <+: found := by
  induction stack, seen, units using closureLoop.induct pool with
  | case1 seen units =>
    rw [closureLoop_nil] at h
    cases h
    exact List.prefix_refl found
  | case2 seen units name rest hknown ih =>
    rw [closureLoop_seen (by simpa using hknown)] at h
    exact ih h
  | case3 seen units name rest hnew hfile =>
    rw [closureLoop_missing (by simpa using hnew) hfile] at h
    cases h
  | case4 seen units name rest hnew unit hfile ih =>
    rw [closureLoop_found (by simpa using hnew) hfile] at h
    exact (List.prefix_append units [unit]).trans (ih h)

/-- The loop finds the unit that it starts from first. -/
theorem head?_of_closureLoop {found : List FileDescriptor} (hfile : pool.file? root = some unit)
    (h : pool.closureLoop root [root] [] [] = .ok found) : found.head? = some unit := by
  rw [closureLoop_found List.not_mem_nil hfile] at h
  obtain ⟨more, rfl⟩ := closureLoop_grows h
  rfl

/-- Going on with a loop after the units of further names were found. -/
def Resumes (pool : SchemaPool) (root : String) (top : List String) (w w' : Walk) : Prop :=
  ∃ new, w'.discovered = new ++ w.discovered ∧ ∀ rest units,
    pool.closureLoop root (top ++ rest) w.discovered units =
      new.reverse.mapM (pool.fileFor root) >>= fun found =>
        pool.closureLoop root rest w'.discovered (units ++ found)

namespace Resumes

variable {top top' : List String} {w w' w'' : Walk}

theorem refl (pool : SchemaPool) (root : String) (w : Walk) : pool.Resumes root [] w w :=
  ⟨[], rfl, fun rest units => by
    rw [List.reverse_nil, List.mapM_nil, pure_eq_ok, ok_bind, List.append_nil, List.nil_append]⟩

theorem trans (h : pool.Resumes root top w w') (h' : pool.Resumes root top' w' w'') :
    pool.Resumes root (top ++ top') w w'' := by
  obtain ⟨new, hnew, hloop⟩ := h
  obtain ⟨new', hnew', hloop'⟩ := h'
  refine ⟨new' ++ new, by rw [hnew', hnew, List.append_assoc], fun rest units => ?_⟩
  rw [List.append_assoc, hloop, List.reverse_append, List.mapM_append, bind_assoc]
  refine bind_congr fun found => ?_
  rw [hloop', bind_assoc]
  refine bind_congr fun found' => ?_
  rw [pure_bind, List.append_assoc]

theorem missing_le {U : List String} (h : pool.Resumes root top w w') :
    Walk.missing U w' ≤ Walk.missing U w := by
  obtain ⟨new, hnew, -⟩ := h
  refine Walk.missing_mono fun b hb => ?_
  rw [hnew]
  exact List.mem_append_right _ hb

end Resumes

/-- Names on top of the stack, given what the loop does with one of them. -/
theorem closureLoop_foldl {U : List String} {depth : Nat} {visit : Walk → String → Walk}
    (hvisit : ∀ w a, Walk.missing U w < depth → pool.Resumes root [a] w (visit w a)) :
    ∀ (names : List String) (w : Walk), Walk.missing U w < depth →
      pool.Resumes root names w (names.foldl visit w)
  | [], w, _ => .refl pool root w
  | a :: names, w, hd => by
    have hfirst := hvisit w a hd
    exact hfirst.trans (closureLoop_foldl hvisit names _ (hfirst.missing_le.trans_lt hd))

/-- **A name on top of the stack** leads the loop through what a visit discovers. -/
theorem closureLoop_visit (pool : SchemaPool) (root : String) : ∀ (depth : Nat) (w : Walk)
    (a : String), Walk.missing (pool.files.map FileDescriptor.name) w < depth →
      pool.Resumes root [a] w (Walk.visit pool.dependenciesOf depth w a)
  | 0, _, _, hd => absurd hd (Nat.not_lt_zero _)
  | depth + 1, w, a, hd => by
    rw [Walk.visit]
    by_cases hknown : a ∈ w.discovered
    · rw [if_pos (by simpa using hknown)]
      refine ⟨[], rfl, fun rest units => ?_⟩
      rw [List.singleton_append, closureLoop_seen hknown, List.reverse_nil, List.mapM_nil,
        pure_eq_ok, ok_bind, List.append_nil]
    · rw [if_neg (by simpa using hknown)]
      cases hfile : pool.file? a with
      | none =>
        -- the walk goes no further, and the loop stops with a failure
        have hnext : pool.dependenciesOf a = [] := by rw [dependenciesOf, hfile]; rfl
        refine ⟨[a], by simp [hnext], fun rest units => ?_⟩
        rw [List.singleton_append, closureLoop_missing hknown hfile, List.reverse_singleton,
          List.mapM_cons, fileFor, hfile]
        rfl
      | some unit =>
        have hless := Walk.missing_enter (w := w) (mem_names_of_file? hfile) hknown
        have hnext : pool.dependenciesOf a = unit.dependencies := by
          rw [dependenciesOf, hfile]
          rfl
        obtain ⟨new, hnew, hloop⟩ := closureLoop_foldl (closureLoop_visit pool root depth)
          (pool.dependenciesOf a) ⟨a :: w.discovered, w.finished⟩ (by omega)
        refine ⟨new ++ [a], by simpa using hnew, fun rest units => ?_⟩
        rw [hnext] at hloop
        have hfor : pool.fileFor root a = .ok unit := by rw [fileFor, hfile]
        rw [List.singleton_append, closureLoop_found hknown hfile, hloop, List.reverse_append,
          List.reverse_singleton, List.singleton_append, List.mapM_cons, hfor, ok_bind, bind_assoc,
          hnext]
        refine bind_congr fun found => ?_
        rw [pure_bind, List.append_assoc, List.singleton_append]

/-- **The closure** of a unit is what the loop finds. -/
theorem closure_eq_loop (pool : SchemaPool) (root : String) :
    pool.closure root = pool.closureLoop root [root] [] [] := by
  have hdepth : Walk.missing (pool.files.map FileDescriptor.name) .empty <
      pool.files.length + 1 := by
    have hle := Walk.missing_empty_le (U := pool.files.map FileDescriptor.name)
    rw [List.length_map] at hle
    omega
  obtain ⟨new, hnew, hloop⟩ :=
    closureLoop_foldl (closureLoop_visit pool root _) [root] .empty hdepth
  have hall := hloop [] []
  simp only [closureLoop_nil, List.nil_append, List.append_nil] at hall
  have hfound : (Walk.ofStarts pool.dependenciesOf (pool.files.length + 1) [root]).discovered =
      new := hnew.trans (List.append_nil new)
  rw [closure]
  rw [hfound]
  show new.reverse.mapM (pool.fileFor root) = pool.closureLoop root [root] Walk.empty.discovered []
  rw [hall]
  exact (bind_pure _).symm

end SchemaPool

end CellFilter
