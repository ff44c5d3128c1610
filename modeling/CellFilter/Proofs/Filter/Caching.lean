import CellFilter.Proofs.Cache.Run
import CellFilter.Proofs.Filter.Bundling
import CellFilter.Proofs.Filter.Simulation

/-!
# Filters made ready without a cache

A cache trusts its keys.  As long as every name belongs to one payload, that changes nothing: a
filter made ready through the cache is the filter made ready with the schemas that the payloads
decode to.

* `SchemaCache.Faithful`: a cache that holds what the payloads of the names decode to.
* `Filter.evaluatorFrom`: a filter made ready with schemas from anywhere.
* `evaluator_yields`: a faithful cache makes no difference.
* `evaluatorFrom_alike`: isomorphic schemas make no difference either.
-/

namespace CellFilter

open Outcome WithCache

variable {carried : String → Bytes} {cache : SchemaCache} {key : SchemaKey} {schema : Schema}

/-! ## Faithful caches -/

namespace SchemaCache

/-- Every schema in the cache is what the payload of its name decodes to. -/
def Faithful (carried : String → Bytes) (cache : SchemaCache) : Prop :=
  ∀ key handle, cache.get? key = some handle →
    Payload.decode (carried key.name) = .ok handle.schema

theorem faithful_empty (carried : String → Bytes) : empty.Faithful carried := by
  intro key handle h
  cases h

theorem Faithful.insert (h : cache.Faithful carried)
    (hd : Payload.decode (carried key.name) = .ok schema) :
    (cache.insert key schema).Faithful carried := by
  intro other handle hget
  rw [get?_insert] at hget
  split_ifs at hget with hother
  · cases hget
    rw [hother]
    exact hd
  · exact h other handle hget

/-- A faithful cache hands out what the payload decodes to, and stays faithful. -/
theorem Faithful.resolve (h : cache.Faithful carried) (hp : carried key.name ≠ []) :
    (runOn (resolve key (some (carried key.name))) cache).1.map SchemaHandle.schema =
        Payload.decode (carried key.name) ∧
      (runOn (resolve key (some (carried key.name))) cache).2.Faithful carried := by
  cases hget : cache.get? key with
  | some handle =>
    rw [resolve_of_hit hget]
    exact ⟨(h key handle hget).symm, h⟩
  | none =>
    have hkept : (carried key.name).isEmpty = false := by simpa using hp
    cases hd : Payload.decode (carried key.name) with
    | ok schema =>
      rw [resolve_of_miss hget hkept hd]
      exact ⟨rfl, h.insert hd⟩
    | error fault =>
      rw [resolve_of_undecodable hget hkept hd]
      exact ⟨rfl, h⟩

end SchemaCache

/-- A computation that comes to one outcome on every faithful cache and leaves it faithful. -/
def Yields {α : Type} (carried : String → Bytes) (x : WithCache α) (outcome : Except FilterError α) :
    Prop :=
  ∀ cache : SchemaCache, cache.Faithful carried →
    (runOn x cache).1 = outcome ∧ (runOn x cache).2.Faithful carried

namespace Yields

variable {α β : Type}

theorem pure (a : α) : Yields carried (Pure.pure a) (.ok a) := fun _ h => ⟨rfl, h⟩

theorem bind {x : WithCache α} {f : α → WithCache β} {r : Except FilterError α}
    {g : α → Except FilterError β} (hx : Yields carried x r)
    (hf : ∀ a, Yields carried (f a) (g a)) : Yields carried (x >>= f) (r >>= g) := by
  intro cache h
  obtain ⟨hr, hleft⟩ := hx cache h
  rw [runOn_bind]
  cases hrun : runOn x cache with
  | mk result left =>
    rw [hrun] at hr hleft
    subst hr
    cases result with
    | error fault => exact ⟨rfl, hleft⟩
    | ok a => exact hf a left hleft

end Yields

/-! ## Filters -/

/-- A predicate made ready with the schema that `schemas` has for its name. -/
def ColumnPredicate.testFrom (schemas : String → Except FilterError Schema) (p : ColumnPredicate) :
    Except FilterError ColumnTest := do
  let schema ← schemas p.key.name
  let wanted ← p.wantedIn schema
  return ⟨p, schema, wanted⟩

namespace Filter

mutual

/-- A filter made ready with the schemas that `schemas` has for their names. -/
def evaluatorFrom (schemas : String → Except FilterError Schema) :
    Filter → Except FilterError Evaluator
  | .column p => do return .column (← p.testFrom schemas) .notFound
  | .group op filters _ => do return .group op (← evaluatorsFrom schemas filters)

/-- Filters made ready from the first to the last. -/
def evaluatorsFrom (schemas : String → Except FilterError Schema) :
    List Filter → Except FilterError (List Evaluator)
  | [] => return []
  | f :: rest => do
    let first ← f.evaluatorFrom schemas
    return first :: (← evaluatorsFrom schemas rest)

end

/-- What the payloads of names decode to. -/
def decoded (carried : String → Bytes) (name : String) : Except FilterError Schema :=
  Payload.decode (carried name)

theorem test_yields {p : ColumnPredicate} (hp : p.Carries carried) :
    Yields carried p.test (p.testFrom (decoded carried)) := by
  intro cache h
  obtain ⟨hr, hleft⟩ := h.resolve hp.nonempty
  -- the number of the handle differs from run to run, but a test keeps only the schema
  rw [ColumnPredicate.test, ColumnPredicate.testFrom, hp.payload, runOn_bind, decoded, ← hr]
  cases hrun : runOn (SchemaCache.resolve p.key (some (carried p.key.name))) cache with
  | mk result left =>
    rw [hrun] at hleft
    cases result with
    | error fault => exact ⟨rfl, hleft⟩
    | ok handle =>
      have hlift : runOn (liftM (p.wantedIn handle.schema) : WithCache Wanted) left =
        (p.wantedIn handle.schema, left) := rfl
      show (runOn (liftM (p.wantedIn handle.schema) >>= _) left).1 = _ ∧
        (runOn (liftM (p.wantedIn handle.schema) >>= _) left).2.Faithful carried
      rw [runOn_bind, hlift, map_ok, ok_bind]
      cases p.wantedIn handle.schema with
      | error fault => exact ⟨rfl, hleft⟩
      | ok wanted => exact ⟨rfl, hleft⟩

mutual

/-- **A faithful cache** makes a filter ready as its payloads would alone. -/
theorem evaluator_yields : ∀ {f : Filter}, f.Over (·.Carries carried) →
    Yields carried f.evaluator (f.evaluatorFrom (decoded carried))
  | .column p, hp => by
    rw [evaluator, evaluatorFrom]
    exact (test_yields hp).bind fun test => .pure _
  | .group op fs bundle, h => by
    rw [evaluator, evaluatorFrom]
    exact (evaluators_yields h.2).bind fun children => .pure _

theorem evaluators_yields : ∀ {fs : List Filter}, OverAll (·.Carries carried) fs →
    Yields carried (evaluators fs) (evaluatorsFrom (decoded carried) fs)
  | [], _ => .pure []
  | f :: fs, h => by
    rw [evaluators, evaluatorsFrom]
    exact (evaluator_yields h.1).bind fun first =>
      (evaluators_yields h.2).bind fun others => .pure _

end

/-- Two schemas of built pools that say the same. -/
structure Interchangeable (s t : Schema) : Prop where
  isomorphic : s.Isomorphic t
  left : s.pool.Built
  right : t.pool.Built

variable {here there : String → Except FilterError Schema}

theorem testFrom_alike {p : ColumnPredicate}
    (h : Alike Interchangeable (here p.key.name) (there p.key.name)) :
    Alike SameTest (p.testFrom here) (p.testFrom there) := by
  unfold ColumnPredicate.testFrom
  refine h.bind ?_
  intro s t hst
  refine (p.wantedIn_alike hst.isomorphic).bind ?_
  intro w w' hw
  exact ⟨rfl, hst.isomorphic, hst.left, hst.right, hw⟩

mutual

/-- **Isomorphic schemas** make a filter ready alike. -/
theorem evaluatorFrom_alike : ∀ {f : Filter},
    f.Over (fun p => Alike Interchangeable (here p.key.name) (there p.key.name)) →
      Alike SameEvaluator (f.evaluatorFrom here) (f.evaluatorFrom there)
  | .column p, hp => by
    rw [evaluatorFrom, evaluatorFrom]
    exact (testFrom_alike hp).bind fun _ _ htest => .column .notFound htest
  | .group op fs bundle, h => by
    rw [evaluatorFrom, evaluatorFrom]
    exact (evaluatorsFrom_alike h.2).bind fun _ _ hes => .group hes

theorem evaluatorsFrom_alike : ∀ {fs : List Filter},
    OverAll (fun p => Alike Interchangeable (here p.key.name) (there p.key.name)) fs →
      Alike SameEvaluators (evaluatorsFrom here fs) (evaluatorsFrom there fs)
  | [], _ => SameEvaluators.nil
  | f :: fs, h => by
    rw [evaluatorsFrom, evaluatorsFrom]
    refine (evaluatorFrom_alike h.1).bind ?_
    intro e e' he
    exact (evaluatorsFrom_alike h.2).bind fun _ _ hes => .cons he hes

end

end Filter

end CellFilter
