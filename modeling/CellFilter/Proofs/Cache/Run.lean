import CellFilter.Cache.Basic
import CellFilter.Proofs.Outcome

/-!
# Running computations with a cache

A computation with a cache yields its outcome together with the cache it leaves, also when it
fails.

* `run_bind_eq_ok`: a successful run of two steps is two successful runs.
* `Keeps`: a computation that preserves what is said of a cache, also when it fails.
* `resolve_of_hit`, `resolve_of_miss`, `resolve_of_undecodable`: what asking a cache for a schema
  comes to.
-/

namespace CellFilter

namespace WithCache

variable {α β : Type} {cache cache' : SchemaCache}

/-- The outcome of a computation and the cache that it leaves. -/
def runOn (x : WithCache α) (cache : SchemaCache) : Except FilterError α × SchemaCache :=
  x.run cache

@[simp] theorem runOn_pure (a : α) (cache : SchemaCache) :
    runOn (pure a : WithCache α) cache = (.ok a, cache) := rfl

@[simp] theorem runOn_throw (e : FilterError) (cache : SchemaCache) :
    runOn (throw e : WithCache α) cache = (.error e, cache) := rfl

@[simp] theorem runOn_get (cache : SchemaCache) :
    runOn (get : WithCache SchemaCache) cache = (.ok cache, cache) := rfl

theorem runOn_bind (x : WithCache α) (f : α → WithCache β) (cache : SchemaCache) :
    runOn (x >>= f) cache = match runOn x cache with
      | (.ok a, left) => runOn (f a) left
      | (.error e, left) => (.error e, left) := by
  unfold runOn ExceptT.run
  simp only [bind, ExceptT.bind, ExceptT.mk, StateT.bind, ExceptT.bindCont]
  cases x cache with
  | mk result left => cases result <;> rfl

theorem runOn_bind_eq_ok {x : WithCache α} {f : α → WithCache β} {b : β} :
    runOn (x >>= f) cache = (.ok b, cache') ↔
      ∃ a left, runOn x cache = (.ok a, left) ∧ runOn (f a) left = (.ok b, cache') := by
  rw [runOn_bind]
  cases h : runOn x cache with
  | mk result left =>
    cases result with
    | error e => simp
    | ok a => simp

/-- What is said of a cache is said of the one that the computation leaves. -/
def Keeps (invariant : SchemaCache → Prop) (x : WithCache α) : Prop :=
  ∀ cache, invariant cache → invariant (runOn x cache).2

namespace Keeps

variable {invariant : SchemaCache → Prop}

theorem pure (a : α) : Keeps invariant (Pure.pure a : WithCache α) := fun _ h => h

theorem lift (x : Except FilterError α) : Keeps invariant (liftM x : WithCache α) := by
  intro cache h
  cases x <;> exact h

theorem bind {x : WithCache α} {f : α → WithCache β} (hx : Keeps invariant x)
    (hf : ∀ a, Keeps invariant (f a)) : Keeps invariant (x >>= f) := by
  intro cache h
  have hleft := hx cache h
  rw [runOn_bind]
  cases hrun : runOn x cache with
  | mk result left =>
    rw [hrun] at hleft
    cases result with
    | error fault => exact hleft
    | ok a => exact hf a left hleft

end Keeps

end WithCache

namespace SchemaCache

open WithCache

variable {cache : SchemaCache} {key : SchemaKey}

theorem get?_insert (cache : SchemaCache) (key other : SchemaKey) (schema : Schema) :
    (cache.insert key schema).get? other =
      if other = key then some ⟨cache.decoded, schema⟩ else cache.get? other := by
  rw [get?, insert, List.lookup_cons]
  by_cases hother : other = key
  · simp [hother]
  · rw [beq_false_of_ne hother, if_neg hother]
    rfl

/-- A schema under the key is handed out, whatever payload comes with it. -/
theorem resolve_of_hit {handle : SchemaHandle} (h : cache.get? key = some handle)
    (payload? : Option Bytes) : runOn (resolve key payload?) cache = (.ok handle, cache) := by
  rw [resolve, runOn_bind, runOn_get]
  simp only [h]
  rfl

/-- Without a schema under the key, the payload is decoded and kept. -/
theorem resolve_of_miss {payload : Bytes} {schema : Schema} (h : cache.get? key = none)
    (hp : payload.isEmpty = false) (hd : Payload.decode payload = .ok schema) :
    runOn (resolve key (some payload)) cache =
      (.ok ⟨cache.decoded, schema⟩, cache.insert key schema) := by
  rw [resolve, runOn_bind, runOn_get]
  simp only [h, Option.filter, hp, Bool.not_false, if_true, hd]
  rfl

/-- A payload that cannot be decoded leaves no trace. -/
theorem resolve_of_undecodable {payload : Bytes} {fault : FilterError} (h : cache.get? key = none)
    (hp : payload.isEmpty = false) (hd : Payload.decode payload = .error fault) :
    runOn (resolve key (some payload)) cache = (.error fault, cache) := by
  rw [resolve, runOn_bind, runOn_get]
  simp only [h, Option.filter, hp, Bool.not_false, if_true, hd]
  rfl

/-- Without a schema under the key and without a payload there is nothing to decode. -/
theorem resolve_of_missing {payload? : Option Bytes} (h : cache.get? key = none)
    (hp : payload?.filter (fun p => !p.isEmpty) = none) :
    runOn (resolve key payload?) cache = (.error (.missingPayload key.name), cache) := by
  rw [resolve, runOn_bind, runOn_get]
  simp only [h, hp]
  rfl

end SchemaCache

end CellFilter
