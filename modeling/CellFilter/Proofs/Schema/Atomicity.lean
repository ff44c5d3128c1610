import CellFilter.Proofs.Schema.Registration
import CellFilter.Proofs.Schema.Resolution

/-!
# Units that cannot be added

A unit is refused because of a dependency that is not there, a name that is taken, or a field that
makes no sense; by then any number of its types may stand in the pool.  All of them are taken back,
so that a pool answers as if it had never been asked to add the unit.

* `PoolCall`, `PoolAnswer`: what a pool is called for, and what it answers.
* `perform_of_refused`: a refused call changes nothing.
* `performAll_heeded`: a history comes to what its calls that were not refused come to.
* `addInPlace_atomic`: **adding a unit** succeeds or leaves no trace.
-/

namespace CellFilter

/-- A call to a pool: to add a unit, or to look something up. -/
inductive PoolCall where
  | add (file : FileDescriptor)
  | file (name : String)
  | files
  | messageNames
  | schema (name : String)

/-- What a pool answers to a call. -/
inductive PoolAnswer where
  | added (outcome : Except FilterError Unit)
  | file (file? : Option FileDescriptor)
  | files (files : List FileDescriptor)
  | messageNames (names : List String)
  | schema (schema? : Option Schema)

/-- Whether a unit was not added. -/
def PoolAnswer.isRefusal : PoolAnswer → Bool
  | .added (.error _) => true
  | _ => false

namespace SchemaPool

/-- The pool that a call leaves, and its answer. -/
def perform (pool : SchemaPool) : PoolCall → SchemaPool × PoolAnswer
  | .add file => ((pool.addInPlace file).1, .added (pool.addInPlace file).2)
  | .file name => (pool, .file (pool.file? name))
  | .files => (pool, .files pool.files)
  | .messageNames => (pool, .messageNames pool.messageNames)
  | .schema name => (pool, .schema (Schema.ofPool? pool name))

/-- The pool that calls leave one after the other, and their answers. -/
def performAll (pool : SchemaPool) : List PoolCall → SchemaPool × List PoolAnswer
  | [] => (pool, [])
  | call :: rest =>
    let after := (pool.perform call).1.performAll rest
    (after.1, (pool.perform call).2 :: after.2)

/-- The calls that are not refused when all of them are made. -/
def heeded (pool : SchemaPool) : List PoolCall → List PoolCall
  | [] => []
  | call :: rest =>
    let others := (pool.perform call).1.heeded rest
    if (pool.perform call).2.isRefusal then others else call :: others

variable {pool : SchemaPool} {file : FileDescriptor} {e : FilterError}

theorem addInPlace_of_error (h : (pool.addInPlace file).2 = .error e) :
    pool.addInPlace file = (pool, .error e) := by
  rw [addInPlace_eq] at h ⊢
  cases hadd : pool.addFile file with
  | ok next =>
    rw [hadd] at h
    cases h
  | error fault =>
    rw [hadd] at h
    cases h
    rfl

/-- A refused call changes nothing. -/
theorem perform_of_refused {call : PoolCall} (h : (pool.perform call).2.isRefusal = true) :
    (pool.perform call).1 = pool := by
  cases call with
  | add file =>
    cases houtcome : (pool.addInPlace file).2 with
    | ok _ =>
      rw [perform, houtcome] at h
      cases h
    | error e => rw [perform, addInPlace_of_error houtcome]
  | file _ | files | messageNames | schema _ => cases h

/-- A history without the calls that were refused leaves the same pool and has the same answers
otherwise. -/
theorem performAll_heeded (pool : SchemaPool) (calls : List PoolCall) :
    pool.performAll (pool.heeded calls) = ((pool.performAll calls).1,
      (pool.performAll calls).2.filter fun answer => !answer.isRefusal) := by
  induction calls generalizing pool with
  | nil => rfl
  | cons call rest ih =>
    rw [heeded, performAll]
    cases hrefused : (pool.perform call).2.isRefusal with
    | true =>
      rw [if_pos rfl, perform_of_refused hrefused, ih, List.filter_cons_of_neg (by simp [hrefused])]
    | false =>
      rw [if_neg (by simp), performAll, ih, List.filter_cons_of_pos (by simp [hrefused])]

/-- **Adding a unit** is atomic.  A call that fails, for whatever reason and wherever in the
registration of the unit, leaves the pool as it was, and whatever is added or looked up later comes
to what it would have come to without the call.  The same holds of any number of failed calls in a
history. -/
theorem addInPlace_atomic (pool : SchemaPool) :
    (∀ file e, (pool.addInPlace file).2 = .error e → (pool.addInPlace file).1 = pool ∧
      ∀ later, pool.performAll (.add file :: later) =
        ((pool.performAll later).1, .added (.error e) :: (pool.performAll later).2)) ∧
    ∀ calls, pool.performAll (pool.heeded calls) = ((pool.performAll calls).1,
      (pool.performAll calls).2.filter fun answer => !answer.isRefusal) := by
  refine ⟨fun file e h => ?_, performAll_heeded pool⟩
  have hrefused := addInPlace_of_error h
  refine ⟨by rw [hrefused], fun later => ?_⟩
  rw [performAll, perform, hrefused]

/-- The unit of `topPool` with one more message, whose field has no possible number. -/
def brokenUnit : FileDescriptor where
  name? := some "top.proto"
  package? := some "demo"
  dependencies := ["base.proto"]
  messages := (Schema.topUnit ["base.proto"]).messages ++
    [⟨some "Last", [⟨some "bad", none, some (-1), none, some 5, none, none, []⟩], [],
      [⟨some "Kind", [], []⟩], []⟩]
  enums := []
  carried := []

/-- The last field is refused when all types have been added and the first message is complete.
Then a unit of the same name that declares the first message again is added as if it came first. -/
theorem addInPlace_atomic_brokenUnit :
    (Registration.ofFile Schema.basePool brokenUnit).1.added =
      ["demo.Top", "demo.Last", "demo.Last.Kind"] ∧
    (Schema.basePool.addInPlace brokenUnit).1 = Schema.basePool ∧
    Schema.basePool.performAll [.add brokenUnit, .add (Schema.topUnit ["base.proto"])] =
      (Schema.topPool ["base.proto"], [.added (.error (.malformedPayload
        (.negativeFieldNumber "demo.Last"))), .added (.ok ())]) := by
  have hbroken : (Schema.basePool.addInPlace brokenUnit).2 =
      .error (.malformedPayload (.negativeFieldNumber "demo.Last")) := by rfl
  have hmended : Schema.basePool.performAll [.add (Schema.topUnit ["base.proto"])] =
      (Schema.topPool ["base.proto"], [.added (.ok ())]) := by rfl
  obtain ⟨hsame, hlater⟩ := (addInPlace_atomic Schema.basePool).1 brokenUnit _ hbroken
  refine ⟨by rfl, hsame, ?_⟩
  rw [hlater, hmended]

end SchemaPool

end CellFilter
