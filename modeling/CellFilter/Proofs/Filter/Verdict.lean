import CellFilter.Proofs.Cache.Run
import CellFilter.Proofs.Filter.Row

/-!
# The verdict on a row

A filter that is made ready starts every row afresh, whatever was done with it before.  A row whose
cells each of its leaves can judge then leads it to a verdict, and the verdict is the operators of
the tree over what its leaves say about the row.

* `Filter.evaluator_ready`: a filter made ready is the tree that it was made from, with no cell seen.
* `Evaluator.verdict_of_row`: the verdict after a row.
-/

namespace CellFilter

open WithCache

/-! ## Filters made ready -/

namespace Evaluator

mutual

/-- The tree that a filter was made from, but for its bundles. -/
def source : Evaluator → Filter
  | .column test _ => .column test.predicate
  | .group op children => .group op (sources children) .empty

/-- The trees that filters were made from. -/
def sources : List Evaluator → List Filter
  | [] => []
  | e :: rest => e.source :: sources rest

end

end Evaluator

namespace ColumnPredicate

/-- A test keeps the predicate that it was made from. -/
theorem test_predicate {p : ColumnPredicate} {cache cache' : SchemaCache} {test : ColumnTest}
    (h : runOn p.test cache = (.ok test, cache')) : test.predicate = p := by
  rw [ColumnPredicate.test, runOn_bind_eq_ok] at h
  obtain ⟨handle, left, -, h⟩ := h
  rw [runOn_bind_eq_ok] at h
  obtain ⟨wanted, left', -, h⟩ := h
  cases h
  rfl

end ColumnPredicate

namespace Filter

mutual

/-- A filter without its bundles. -/
def unbundled : Filter → Filter
  | .column p => .column p
  | .group op filters _ => .group op (unbundledAll filters) .empty

/-- Filters without their bundles. -/
def unbundledAll : List Filter → List Filter
  | [] => []
  | f :: rest => f.unbundled :: unbundledAll rest

end

mutual

/-- A filter made ready has seen no cell and is the tree that it was made from. -/
theorem evaluator_ready : ∀ {f : Filter} {cache cache' : SchemaCache} {e : Evaluator},
    runOn f.evaluator cache = (.ok e, cache') → e.reset = e ∧ e.source = f.unbundled
  | .column p, cache, cache', e, h => by
    rw [evaluator, runOn_bind_eq_ok] at h
    obtain ⟨test, left, ht, h⟩ := h
    cases h
    exact ⟨rfl, congrArg Filter.column (ColumnPredicate.test_predicate ht)⟩
  | .group op filters bundle, cache, cache', e, h => by
    rw [evaluator, runOn_bind_eq_ok] at h
    obtain ⟨children, left, hc, h⟩ := h
    cases h
    obtain ⟨hr, hs⟩ := evaluators_ready hc
    exact ⟨by rw [Evaluator.reset, hr], by rw [Evaluator.source, unbundled, hs]⟩

theorem evaluators_ready : ∀ {fs : List Filter} {cache cache' : SchemaCache} {es : List Evaluator},
    runOn (evaluators fs) cache = (.ok es, cache') →
      Evaluator.resetAll es = es ∧ Evaluator.sources es = unbundledAll fs
  | [], cache, cache', es, h => by
    rw [evaluators] at h
    cases h
    exact ⟨rfl, rfl⟩
  | f :: rest, cache, cache', es, h => by
    rw [evaluators, runOn_bind_eq_ok] at h
    obtain ⟨first, left, hf, h⟩ := h
    rw [runOn_bind_eq_ok] at h
    obtain ⟨others, left', ho, h⟩ := h
    cases h
    obtain ⟨hr, hs⟩ := evaluator_ready hf
    obtain ⟨hr', hs'⟩ := evaluators_ready ho
    exact ⟨by rw [Evaluator.resetAll, hr, hr'], by
      rw [Evaluator.sources, unbundledAll, hs, hs']⟩

end

end Filter

/-! ## The verdict -/

namespace Evaluator

/-- **The verdict of a row.**  A filter made ready, called in any way and reset, is driven through
every row that its leaves get through alone, and passes it exactly if its tree holds. -/
theorem verdict_of_row {f : Filter} {cache cache' : SchemaCache} {e : Evaluator}
    (hready : runOn f.evaluator cache = (.ok e, cache')) (history : List Call) (row : List Cell)
    (halone : ∀ test ∈ e.tests, ∃ last, drive row (.column test .notFound) = .ok last) :
    e.source = f.unbundled ∧
      ∃ last, drive row (history.foldl call e).reset = .ok last ∧ last.verdict = e.holds row := by
  obtain ⟨hr, hs⟩ := Filter.evaluator_ready hready
  have hj : Judged ([] ++ row) e.reset.tests := by
    intro test ht
    rw [tests_reset] at ht
    obtain ⟨last, hd⟩ := halone test ht
    have hstart : test.stateAfter [] = .ok .notFound := rfl
    exact stateAfter_of_drive hstart hd
  obtain ⟨last, hd, hv⟩ := drive_current e.reset_current hj
  refine ⟨hs, last, ?_, ?_⟩
  · rw [calls_reset, hd]
  · rw [hv, List.nil_append, holds_reset]

/-! ### A row of two cells -/

/-- A message with one number. -/
def flagSchema : Schema where
  pool :=
    { files := []
      messages := [⟨"demo.Flag", 0, [0], [⟨"value", "demo.Flag.value", 1, .int32, false, none⟩]⟩]
      enums := []
      types := [("demo.Flag", .message 0)] }
  index := 0
  index_lt := by decide

/-- The column of such messages, their schema known to the cache. -/
def flagTarget : ColumnTarget where
  family := [102]
  qualifier := [113]
  key := ⟨"demo.Flag", ⟨0⟩⟩
  payload? := none

/-- A cache that knows the schema. -/
def flagCache : SchemaCache := SchemaCache.empty.insert flagTarget.key flagSchema

/-- Whether the number is one, between empty groups. -/
def flagFilter : Filter :=
  .group .and
    [.group .and [] .empty,
      .group .or [.group .or [] .empty, .column (flagTarget.messageMatch .equal [8, 1])] .empty]
    .empty

/-- The test at the leaf. -/
def flagTest : ColumnTest where
  predicate := flagTarget.messageMatch .equal [8, 1]
  schema := flagSchema
  wanted := .message ⟨flagSchema, [(1, .atom (.i32 1))]⟩

/-- A cell in another column, then the number one. -/
def flagRow : List Cell := [⟨[102], [120], []⟩, ⟨[102], [113], [8, 1]⟩]

theorem verdict_of_flagRow :
    ∃ e last, runOn flagFilter.evaluator flagCache = (.ok e, flagCache) ∧
      drive flagRow ([.value ⟨[102], [113], [8]⟩, .reset].foldl call e).reset = .ok last ∧
        last.verdict = true := by
  have hready : runOn flagFilter.evaluator flagCache = (.ok (.group .and
      [.group .and [], .group .or [.group .or [], .column flagTest .notFound]]), flagCache) := rfl
  have hrow : (drive flagRow (.column flagTest .notFound)).toOption.isSome = true := by decide +kernel
  obtain ⟨-, last, hd, hv⟩ := verdict_of_row hready [.value ⟨[102], [113], [8]⟩, .reset] flagRow <| by
    intro test ht
    obtain rfl : test = flagTest := by simpa [tests, testsOf] using ht
    cases hd : drive flagRow (.column flagTest .notFound) with
    | error fault => rw [hd] at hrow; cases hrow
    | ok last => exact ⟨last, rfl⟩
  refine ⟨_, last, hready, hd, ?_⟩
  rw [hv]
  decide +kernel

end Evaluator

end CellFilter
