import CellFilter.Filter.Evaluator
import CellFilter.Proofs.Outcome
import Mathlib.Data.List.Induction

/-!
# Rows through short-circuiting filters

A host feeds the cells of a row to a filter and leaves the row when it is told to.  Inside the
filter a conjunction stops asking after the first child that skips the row, and a disjunction asks
nobody once a child is satisfied, so that different leaves see different beginnings of one row.

* `ColumnTest.holds`, `Evaluator.holds`: what a test and a filter say about a whole row, without
  any state.
* `Evaluator.Current row e`: `e` has the states that `row` leads to, except below children that
  will not be asked again.
* `onValue_current`: one cell keeps an evaluator current, and its code says whether it skips.
* `drive_current`: so does a whole row, up to the cell at which the host leaves it.
-/

namespace CellFilter

open Outcome

/-! ## One column -/

namespace ColumnTest

/-- Whether a cell matches; one that cannot be judged does not. -/
def passes (test : ColumnTest) (cell : Cell) : Bool := (test.accepts cell.value).toOption == some true

/-- What the test says about a row: without a cell in its column whatever is said about missing
columns, else the first cell of the column or any of them. -/
def holds (test : ColumnTest) (row : List Cell) : Bool :=
  match row.filter test.concerns with
  | [] => !test.predicate.filterIfMissing
  | first :: others =>
    if test.predicate.latestVersionOnly then test.passes first
    else (first :: others).any test.passes

/-- The state after a row, unless a cell of it cannot be judged. -/
def stateAfter (test : ColumnTest) (row : List Cell) : Except FilterError RowState :=
  row.foldlM (fun state cell => (test.onValue state cell).map Prod.snd) .notFound

variable {test : ColumnTest} {state : RowState} {cell : Cell} {row : List Cell}

theorem stateAfter_concat (row : List Cell) (cell : Cell) : test.stateAfter (row ++ [cell]) =
    test.stateAfter row >>= fun state => (test.onValue state cell).map Prod.snd :=
  foldlM_concat _ _ _ _

theorem onValue_settled (h : test.isSettled state = true) (cell : Cell) :
    test.onValue state cell = .ok (test.codeFor state, state) := by
  simp [onValue, h]

theorem onValue_elsewhere (h : test.isSettled state = false) (hc : test.concerns cell = false) :
    test.onValue state cell = .ok (.include, state) := by
  simp [onValue, h, hc]

theorem onValue_here (h : test.isSettled state = false) (hc : test.concerns cell = true) :
    test.onValue state cell = (test.accepts cell.value).map fun accepted =>
      if accepted then (.include, .matched) else (test.missCode, .unmatched) := by
  simp only [onValue, h, hc, Bool.not_true, Bool.false_eq_true, if_false]
  cases test.accepts cell.value with
  | error fault => rfl
  | ok accepted => cases accepted <;> rfl

/-- What a state says about the cells of the column seen so far. -/
def Reached (test : ColumnTest) (cells : List Cell) : RowState → Prop
  | .notFound => cells = []
  | .matched => ∃ first others, cells = first :: others ∧
      if test.predicate.latestVersionOnly then test.passes first = true
      else (first :: others).any test.passes = true
  | .unmatched => ∃ first others, cells = first :: others ∧
      if test.predicate.latestVersionOnly then test.passes first = false
      else (first :: others).any test.passes = false

/-- A settled state stays right whatever else the row holds. -/
theorem Reached.append {cells : List Cell} (h : test.Reached cells state)
    (hs : test.isSettled state = true) (more : List Cell) : test.Reached (cells ++ more) state := by
  cases state with
  | notFound => simp [isSettled] at hs
  | matched =>
    obtain ⟨first, others, rfl, hp⟩ := h
    refine ⟨first, others ++ more, rfl, ?_⟩
    split_ifs at hp ⊢
    · exact hp
    · rw [List.any_cons, Bool.or_eq_true] at hp
      rw [List.any_cons, List.any_append, Bool.or_eq_true, Bool.or_eq_true]
      exact hp.imp_right Or.inl
  | unmatched =>
    obtain ⟨first, others, rfl, hp⟩ := h
    have hl : test.predicate.latestVersionOnly = true := hs
    rw [if_pos hl] at hp
    exact ⟨first, others ++ more, rfl, by rw [if_pos hl]; exact hp⟩

/-- One more cell of the column, when the state is not settled yet. -/
theorem Reached.concat {cells : List Cell} (h : test.Reached cells state)
    (hs : test.isSettled state = false) {accepted : Bool}
    (ha : test.accepts cell.value = .ok accepted) :
    test.Reached (cells ++ [cell]) (if accepted then .matched else .unmatched) := by
  have hp : test.passes cell = accepted := by simp [passes, ha, Except.toOption]
  cases state with
  | notFound =>
    obtain rfl : cells = [] := h
    cases accepted <;> exact ⟨cell, [], rfl, by simp [hp]⟩
  | matched => simp [isSettled] at hs
  | unmatched =>
    obtain ⟨first, others, rfl, hq⟩ := h
    have hl : ¬ test.predicate.latestVersionOnly = true := by simpa [isSettled] using hs
    rw [if_neg hl, List.any_cons, Bool.or_eq_false_iff] at hq
    cases accepted <;>
      exact ⟨first, others ++ [cell], rfl, by rw [if_neg hl]; simp [hq.1, hq.2, hp]⟩

theorem stateAfter_reached (h : test.stateAfter row = .ok state) :
    test.Reached (row.filter test.concerns) state := by
  induction row using List.reverseRecOn generalizing state with
  | nil => cases h; rfl
  | append_singleton row cell ih =>
    rw [stateAfter_concat] at h
    obtain ⟨earlier, he, h⟩ := bind_eq_ok.mp h
    rw [List.filter_append]
    cases hs : test.isSettled earlier with
    | true =>
      rw [onValue_settled hs] at h
      cases h
      exact (ih he).append hs _
    | false =>
      cases hc : test.concerns cell with
      | false =>
        rw [onValue_elsewhere hs hc] at h
        cases h
        simpa [hc] using ih he
      | true =>
        rw [onValue_here hs hc] at h
        cases ha : test.accepts cell.value with
        | error fault => rw [ha] at h; cases h
        | ok accepted =>
          rw [ha] at h
          have := (ih he).concat hs ha
          cases accepted <;> (cases h; simpa [hc] using this)

theorem Reached.verdict_eq (h : test.Reached (row.filter test.concerns) state) :
    test.verdict state = test.holds row := by
  cases state with
  | notFound =>
    have hc : row.filter test.concerns = [] := h
    simp [verdict, holds, hc]
  | matched =>
    obtain ⟨first, others, hc, hp⟩ := h
    simp only [verdict, holds, hc]
    split_ifs at hp ⊢ <;> exact hp.symm
  | unmatched =>
    obtain ⟨first, others, hc, hp⟩ := h
    simp only [verdict, holds, hc]
    split_ifs at hp ⊢ <;> exact hp.symm

/-- A settled state decides every row that goes on from here. -/
theorem verdict_of_settled (h : test.stateAfter row = .ok state) (hs : test.isSettled state = true)
    (more : List Cell) : test.verdict state = test.holds (row ++ more) := by
  refine Reached.verdict_eq ?_
  rw [List.filter_append]
  exact (stateAfter_reached h).append hs _

theorem stateAfter_of_settled (h : test.stateAfter row = .ok state)
    (hs : test.isSettled state = true) (more : List Cell) :
    test.stateAfter (row ++ more) = .ok state := by
  induction more using List.reverseRecOn with
  | nil => rw [List.append_nil]; exact h
  | append_singleton more cell ih =>
    rw [← List.append_assoc, stateAfter_concat, ih, ok_bind, onValue_settled hs]
    rfl

/-- Only a settled state skips the row. -/
theorem isSettled_of_onValue {code : ReturnCode} {next : RowState}
    (h : test.onValue state cell = .ok (code, next)) (hcode : code ≠ .include) :
    test.isSettled next = true := by
  cases hs : test.isSettled state with
  | true =>
    rw [onValue_settled hs] at h
    cases h
    exact hs
  | false =>
    cases hc : test.concerns cell with
    | false =>
      rw [onValue_elsewhere hs hc] at h
      cases h
      exact absurd rfl hcode
    | true =>
      rw [onValue_here hs hc] at h
      obtain ⟨accepted, -, h⟩ := map_eq_ok.mp h
      cases accepted with
      | true => cases h; rfl
      | false =>
        cases h
        simp only [missCode] at hcode
        split_ifs at hcode with hl
        · exact hl
        · exact absurd rfl hcode

/-- A row whose cells can be judged one after the other is judged up to any of them. -/
theorem stateAfter_prefix {more : List Cell} (h : test.stateAfter (row ++ more) = .ok state) :
    ∃ earlier, test.stateAfter row = .ok earlier := by
  rw [stateAfter, List.foldlM_append] at h
  obtain ⟨earlier, he, -⟩ := bind_eq_ok.mp h
  exact ⟨earlier, he⟩

end ColumnTest

/-! ## Trees -/

namespace Evaluator

mutual

/-- The tests at the leaves. -/
def tests : Evaluator → List ColumnTest
  | .column test _ => [test]
  | .group _ children => testsOf children

/-- The tests at the leaves of all. -/
def testsOf : List Evaluator → List ColumnTest
  | [] => []
  | e :: rest => e.tests ++ testsOf rest

end

mutual

/-- What a filter says about a whole row: its operators over what its tests say. -/
def holds (row : List Cell) : Evaluator → Bool
  | .column test _ => test.holds row
  | .group .and children => allHold row children
  | .group .or children => anyHolds row children

/-- Whether all hold for a row. -/
def allHold (row : List Cell) : List Evaluator → Bool
  | [] => true
  | e :: rest => e.holds row && allHold row rest

/-- Whether some hold for a row. -/
def anyHolds (row : List Cell) : List Evaluator → Bool
  | [] => false
  | e :: rest => e.holds row || anyHolds row rest

end

mutual

/-- Whether the filter has given up the row: it will skip at every further cell. -/
def skips : Evaluator → Bool
  | .column test state => state == .unmatched && test.predicate.latestVersionOnly
  | .group .and children => anySkip children
  | .group .or children => allSkip children

/-- Whether some have given up. -/
def anySkip : List Evaluator → Bool
  | [] => false
  | e :: rest => e.skips || anySkip rest

/-- Whether all have given up. -/
def allSkip : List Evaluator → Bool
  | [] => true
  | e :: rest => e.skips && allSkip rest

end

mutual

/-- The filter is where `row` leads: its leaves are, except those behind a child of a conjunction
that has given up, and except below a disjunction that was satisfied earlier in the row. -/
def Current (row : List Cell) : Evaluator → Prop
  | .column test state => test.stateAfter row = .ok state
  | .group .and children => CurrentUpTo row children
  | .group .or children =>
    CurrentEach row children ∨
      anySatisfied children = true ∧ ∃ seen more, row = seen ++ more ∧ CurrentEach seen children

/-- All are current up to the first that has given up. -/
def CurrentUpTo (row : List Cell) : List Evaluator → Prop
  | [] => True
  | e :: rest => e.Current row ∧ (e.skips = true ∨ CurrentUpTo row rest)

/-- All are current. -/
def CurrentEach (row : List Cell) : List Evaluator → Prop
  | [] => True
  | e :: rest => e.Current row ∧ CurrentEach row rest

end

/-! ### Filters that know the verdict -/

mutual

theorem verdict_of_isSatisfied : ∀ {e : Evaluator}, e.isSatisfied = true → e.verdict = true
  | .column _ state, h => by
    obtain rfl : state = .matched := by simpa [isSatisfied] using h
    rfl
  | .group .and _, h => by
    rw [isSatisfied, Bool.and_eq_true] at h
    exact allPass_of_allSatisfied h.2
  | .group .or _, h => anyPass_of_anySatisfied h

theorem allPass_of_allSatisfied : ∀ {es : List Evaluator}, allSatisfied es = true →
    allPass es = true
  | [], _ => rfl
  | e :: rest, h => by
    rw [allSatisfied, Bool.and_eq_true] at h
    rw [allPass, verdict_of_isSatisfied h.1, allPass_of_allSatisfied h.2, Bool.and_true]

theorem anyPass_of_anySatisfied : ∀ {es : List Evaluator}, anySatisfied es = true →
    anyPass es = true
  | e :: rest, h => by
    rw [anySatisfied, Bool.or_eq_true] at h
    rcases h with h | h
    · rw [anyPass, verdict_of_isSatisfied h, Bool.true_or]
    · rw [anyPass, anyPass_of_anySatisfied h, Bool.or_true]

end

mutual

theorem verdict_of_skips : ∀ {e : Evaluator}, e.skips = true → e.verdict = false
  | .column _ state, h => by
    rw [skips, Bool.and_eq_true, beq_iff_eq] at h
    obtain ⟨rfl, -⟩ := h
    rfl
  | .group .and _, h => allPass_of_anySkip h
  | .group .or _, h => anyPass_of_allSkip h

theorem allPass_of_anySkip : ∀ {es : List Evaluator}, anySkip es = true → allPass es = false
  | e :: rest, h => by
    rw [anySkip, Bool.or_eq_true] at h
    rcases h with h | h
    · rw [allPass, verdict_of_skips h, Bool.false_and]
    · rw [allPass, allPass_of_anySkip h, Bool.and_false]

theorem anyPass_of_allSkip : ∀ {es : List Evaluator}, allSkip es = true → anyPass es = false
  | [], _ => rfl
  | e :: rest, h => by
    rw [allSkip, Bool.and_eq_true] at h
    rw [anyPass, verdict_of_skips h.1, anyPass_of_allSkip h.2, Bool.or_false]

end

/-! ### What a current filter knows about the row -/

mutual

theorem skips_eq_false_of_isSatisfied : ∀ e : Evaluator, e.isSatisfied = true → e.skips = false
  | .column _ state, h => by
    obtain rfl : state = .matched := by simpa [isSatisfied] using h
    simp [skips]
  | .group .and children, h => by
    simp only [isSatisfied, Bool.and_eq_true] at h
    exact anySkip_eq_false children h.2
  | .group .or children, h => allSkip_eq_false children h

theorem anySkip_eq_false : ∀ es : List Evaluator, allSatisfied es = true → anySkip es = false
  | [], _ => rfl
  | e :: rest, h => by
    simp only [allSatisfied, Bool.and_eq_true] at h
    rw [anySkip, skips_eq_false_of_isSatisfied e h.1, anySkip_eq_false rest h.2, Bool.or_false]

theorem allSkip_eq_false : ∀ es : List Evaluator, anySatisfied es = true → allSkip es = false
  | [], h => by simp [anySatisfied] at h
  | e :: rest, h => by
    simp only [anySatisfied, Bool.or_eq_true] at h
    rcases h with h | h
    · rw [allSkip, skips_eq_false_of_isSatisfied e h, Bool.false_and]
    · rw [allSkip, allSkip_eq_false rest h, Bool.and_false]

end

mutual

/-- A filter that has given up fails the row, however the row goes on. -/
theorem Current.not_holds {row : List Cell} : ∀ {e : Evaluator}, e.Current row → e.skips = true →
    ∀ more, e.holds (row ++ more) = false
  | .column test state, hc, h, more => by
    simp only [skips, Bool.and_eq_true, beq_iff_eq] at h
    obtain ⟨rfl, hl⟩ := h
    exact (test.verdict_of_settled hc hl more).symm
  | .group .and _, hc, h, more => CurrentUpTo.not_allHold hc h more
  | .group .or children, hc, h, more => by
    rcases hc with hc | ⟨hs, -⟩
    · exact CurrentEach.not_anyHolds hc h more
    · rw [skips, allSkip_eq_false children hs] at h
      cases h

theorem CurrentUpTo.not_allHold {row : List Cell} : ∀ {es : List Evaluator}, CurrentUpTo row es →
    anySkip es = true → ∀ more, allHold (row ++ more) es = false
  | e :: rest, hc, h, more => by
    by_cases he : e.skips = true
    · rw [allHold, hc.1.not_holds he, Bool.false_and]
    · have hr : anySkip rest = true := by simpa [anySkip, he] using h
      rw [allHold, CurrentUpTo.not_allHold (hc.2.resolve_left he) hr, Bool.and_false]

theorem CurrentEach.not_anyHolds {row : List Cell} : ∀ {es : List Evaluator}, CurrentEach row es →
    allSkip es = true → ∀ more, anyHolds (row ++ more) es = false
  | [], _, _, _ => rfl
  | e :: rest, hc, h, more => by
    simp only [allSkip, Bool.and_eq_true] at h
    rw [anyHolds, hc.1.not_holds h.1, CurrentEach.not_anyHolds hc.2 h.2, Bool.or_false]

end

mutual

/-- A satisfied filter passes the row, however the row goes on. -/
theorem Current.holds_of_isSatisfied {row : List Cell} : ∀ {e : Evaluator}, e.Current row →
    e.isSatisfied = true → ∀ more, e.holds (row ++ more) = true
  | .column test state, hc, h, more => by
    obtain rfl : state = .matched := by simpa [isSatisfied] using h
    exact (test.verdict_of_settled hc rfl more).symm
  | .group .and _, hc, h, more => by
    simp only [isSatisfied, Bool.and_eq_true] at h
    exact CurrentUpTo.allHold_of_allSatisfied hc h.2 more
  | .group .or children, hc, h, more => by
    rcases hc with hc | ⟨hs, seen, between, rfl, hc⟩
    · exact CurrentEach.anyHolds_of_anySatisfied hc h more
    · rw [List.append_assoc]
      exact CurrentEach.anyHolds_of_anySatisfied hc h _

theorem CurrentUpTo.allHold_of_allSatisfied {row : List Cell} : ∀ {es : List Evaluator},
    CurrentUpTo row es → allSatisfied es = true → ∀ more, allHold (row ++ more) es = true
  | [], _, _, _ => rfl
  | e :: rest, hc, h, more => by
    simp only [allSatisfied, Bool.and_eq_true] at h
    have he : ¬ e.skips = true := by rw [skips_eq_false_of_isSatisfied e h.1]; decide
    rw [allHold, hc.1.holds_of_isSatisfied h.1,
      CurrentUpTo.allHold_of_allSatisfied (hc.2.resolve_left he) h.2, Bool.and_true]

theorem CurrentEach.anyHolds_of_anySatisfied {row : List Cell} : ∀ {es : List Evaluator},
    CurrentEach row es → anySatisfied es = true → ∀ more, anyHolds (row ++ more) es = true
  | e :: rest, hc, h, more => by
    simp only [anySatisfied, Bool.or_eq_true] at h
    rcases h with h | h
    · rw [anyHolds, hc.1.holds_of_isSatisfied h, Bool.true_or]
    · rw [anyHolds, CurrentEach.anyHolds_of_anySatisfied hc.2 h, Bool.or_true]

end

mutual

/-- **The verdict of a current filter** is what the filter says about the row. -/
theorem Current.verdict_eq {row : List Cell} : ∀ {e : Evaluator}, e.Current row →
    e.verdict = e.holds row
  | .column _ _, hc => (ColumnTest.stateAfter_reached hc).verdict_eq
  | .group .and _, hc => CurrentUpTo.allPass_eq hc
  | .group .or children, hc => by
    rcases hc with hc | ⟨hs, seen, more, rfl, hc⟩
    · exact CurrentEach.anyPass_eq hc
    · have hholds := CurrentEach.anyHolds_of_anySatisfied hc hs more
      exact (anyPass_of_anySatisfied hs).trans hholds.symm

theorem CurrentUpTo.allPass_eq {row : List Cell} : ∀ {es : List Evaluator}, CurrentUpTo row es →
    allPass es = allHold row es
  | [], _ => rfl
  | e :: rest, hc => by
    rw [allPass, allHold, hc.1.verdict_eq]
    rcases hc.2 with hs | hr
    · rw [← hc.1.verdict_eq, verdict_of_skips hs, Bool.false_and, Bool.false_and]
    · rw [CurrentUpTo.allPass_eq hr]

theorem CurrentEach.anyPass_eq {row : List Cell} : ∀ {es : List Evaluator}, CurrentEach row es →
    anyPass es = anyHolds row es
  | [], _ => rfl
  | e :: rest, hc => by rw [anyPass, anyHolds, hc.1.verdict_eq, CurrentEach.anyPass_eq hc.2]

end

/-! ### One cell -/

/-- The code of a filter that is where the row leads. -/
def code (e : Evaluator) : ReturnCode := if e.skips then .skipRow else .include

theorem joinAny_codes : ∀ es : List Evaluator,
    joinAny (es.map code) = if allSkip es then .skipRow else .include
  | [] => rfl
  | e :: rest => by
    have ih := joinAny_codes rest
    cases he : e.skips <;> cases hr : allSkip rest <;>
      simp_all [joinAny, code, allSkip]

/-- Every test can judge the cells of a row one after the other. -/
def Judged (row : List Cell) (tests : List ColumnTest) : Prop :=
  ∀ test ∈ tests, ∃ state, test.stateAfter row = .ok state

theorem Judged.left {row : List Cell} {ts us : List ColumnTest} (h : Judged row (ts ++ us)) :
    Judged row ts := fun test ht => h test (List.mem_append_left _ ht)

theorem Judged.right {row : List Cell} {ts us : List ColumnTest} (h : Judged row (ts ++ us)) :
    Judged row us := fun test ht => h test (List.mem_append_right _ ht)

theorem Judged.prefix {row more : List Cell} {ts : List ColumnTest} (h : Judged (row ++ more) ts) :
    Judged row ts := fun test ht => by
  obtain ⟨state, hs⟩ := h test ht
  exact ColumnTest.stateAfter_prefix hs

theorem CurrentEach.append {seen : List Cell} {es : List Evaluator} (more : List Cell)
    (h : CurrentEach seen es ∨ anySatisfied es = true ∧
      ∃ earlier rest, seen = earlier ++ rest ∧ CurrentEach earlier es) :
    ∃ earlier rest, seen ++ more = earlier ++ rest ∧ CurrentEach earlier es := by
  rcases h with h | ⟨-, earlier, rest, rfl, h⟩
  · exact ⟨seen, more, rfl, h⟩
  · exact ⟨earlier, rest ++ more, by rw [List.append_assoc], h⟩

theorem code_of_column {test : ColumnTest} {state next : RowState} {cell : Cell} {code : ReturnCode}
    (h : test.onValue state cell = .ok (code, next)) : code = (Evaluator.column test next).code := by
  cases hs : test.isSettled state with
  | true =>
    rw [ColumnTest.onValue_settled hs] at h
    cases h
    cases state <;> simp_all [ColumnTest.isSettled, ColumnTest.codeFor, ColumnTest.missCode,
      Evaluator.code, skips]
  | false =>
    cases hc : test.concerns cell with
    | false =>
      rw [ColumnTest.onValue_elsewhere hs hc] at h
      cases h
      cases state <;> simp_all [ColumnTest.isSettled, Evaluator.code, skips]
    | true =>
      rw [ColumnTest.onValue_here hs hc] at h
      obtain ⟨accepted, -, h⟩ := map_eq_ok.mp h
      cases accepted <;> (cases h; simp [Evaluator.code, skips, ColumnTest.missCode])

theorem onValue_column {test : ColumnTest} {state : RowState} {row : List Cell} {cell : Cell}
    (hc : test.stateAfter row = .ok state) (hj : Judged (row ++ [cell]) [test]) :
    ∃ next, onValue cell (.column test state) =
        (.ok (code (.column test next)), .column test next) ∧
      test.stateAfter (row ++ [cell]) = .ok next ∧
      ((Evaluator.column test state).skips = true → (Evaluator.column test next).skips = true) := by
  obtain ⟨next, hn⟩ := hj test (List.mem_singleton_self test)
  have hstep := hn
  rw [ColumnTest.stateAfter_concat, hc, ok_bind] at hstep
  obtain ⟨⟨answer, after⟩, hv, rfl⟩ := map_eq_ok.mp hstep
  refine ⟨after, ?_, hn, fun hk => ?_⟩
  · rw [onValue, hv, code_of_column hv]
  · have hset : test.isSettled state = true := by
      simp only [skips, Bool.and_eq_true, beq_iff_eq] at hk
      obtain ⟨rfl, hl⟩ := hk
      exact hl
    rw [ColumnTest.onValue_settled hset] at hv
    cases hv
    exact hk

mutual

/-- **One cell** keeps a filter current.  The filter then skips exactly if it has given up, which
it never takes back. -/
theorem onValue_current {row : List Cell} {cell : Cell} : ∀ {e : Evaluator}, e.Current row →
    Judged (row ++ [cell]) e.tests → ∃ next, onValue cell e = (.ok next.code, next) ∧
      next.Current (row ++ [cell]) ∧ (e.skips = true → next.skips = true)
  | .column test state, hc, hj => by
    obtain ⟨next, hv, hn, hs⟩ := onValue_column hc hj
    exact ⟨.column test next, hv, hn, hs⟩
  | .group .and children, hc, hj => by
    obtain ⟨next, hv, hn, hs⟩ := onValueAll_current hc hj
    exact ⟨.group .and next, by rw [onValue, hv]; rfl, hn, hs⟩
  | .group .or children, hc, hj => by
    -- a satisfied disjunction asks nobody, so its children stay at an earlier part of the row
    by_cases hs : anySatisfied children = true
    · refine ⟨.group .or children, ?_, Or.inr ⟨hs, CurrentEach.append [cell] hc⟩, id⟩
      rw [onValue, if_pos hs, code, skips, allSkip_eq_false children hs]
      rfl
    · obtain ⟨next, hv, hn, hk⟩ := onValueEach_current (hc.resolve_right fun h => hs h.1) hj
      refine ⟨.group .or next, ?_, Or.inl hn, hk⟩
      rw [onValue, if_neg hs, hv]
      show (Except.ok (joinAny (next.map code)), _) = _
      rw [joinAny_codes, code, skips]

theorem onValueAll_current {row : List Cell} {cell : Cell} : ∀ {es : List Evaluator},
    CurrentUpTo row es → Judged (row ++ [cell]) (testsOf es) →
      ∃ next, onValueAll cell .include es =
          (.ok (if anySkip next then .skipRow else .include), next) ∧
        CurrentUpTo (row ++ [cell]) next ∧ (anySkip es = true → anySkip next = true)
  | [], _, _ => ⟨[], rfl, trivial, id⟩
  | e :: rest, hc, hj => by
    obtain ⟨next, hv, hn, hs⟩ := onValue_current hc.1 hj.left
    -- once a child gives up, those behind it are asked no more and need not be current
    by_cases hk : next.skips = true
    · refine ⟨next :: rest, ?_, ⟨hn, Or.inl hk⟩, fun _ => by rw [anySkip, hk, Bool.true_or]⟩
      rw [onValueAll, hv, anySkip, code, hk]
      rfl
    · have he : ¬ e.skips = true := fun h => hk (hs h)
      obtain ⟨others, hv', hn', hs'⟩ := onValueAll_current (hc.2.resolve_left he) hj.right
      refine ⟨next :: others, ?_, ⟨hn, Or.inr hn'⟩, fun h => ?_⟩
      · rw [Bool.not_eq_true] at hk
        rw [onValueAll, hv, anySkip, code, hk]
        simp only [Bool.false_eq_true, if_false, hv', Bool.false_or]
      · rw [anySkip, hs' (by simpa [anySkip, he] using h), Bool.or_true]

theorem onValueEach_current {row : List Cell} {cell : Cell} : ∀ {es : List Evaluator},
    CurrentEach row es → Judged (row ++ [cell]) (testsOf es) →
      ∃ next, onValueEach cell es = (.ok (next.map code), next) ∧
        CurrentEach (row ++ [cell]) next ∧ (allSkip es = true → allSkip next = true)
  | [], _, _ => ⟨[], rfl, trivial, id⟩
  | e :: rest, hc, hj => by
    obtain ⟨next, hv, hn, hs⟩ := onValue_current hc.1 hj.left
    obtain ⟨others, hv', hn', hs'⟩ := onValueEach_current hc.2 hj.right
    refine ⟨next :: others, ?_, ⟨hn, hn'⟩, fun h => ?_⟩
    · rw [onValueEach, hv]
      simp only [hv', map_ok, List.map_cons]
    · simp only [allSkip, Bool.and_eq_true] at h ⊢
      exact ⟨hs h.1, hs' h.2⟩

end

/-! ### Starting over -/

@[simp] theorem onValue_column_reset (cell : Cell) (test : ColumnTest) (state : RowState) :
    (onValue cell (.column test state)).2.reset = .column test .notFound := by
  rw [onValue]
  split <;> rfl

mutual

/-- Whatever a cell does to a filter, an error included, starting over undoes it. -/
theorem onValue_reset (cell : Cell) : ∀ e : Evaluator, (onValue cell e).2.reset = e.reset
  | .column test state => onValue_column_reset cell test state
  | .group .and children => by
    rw [onValue, reset, reset, onValueAll_reset]
  | .group .or children => by
    rw [onValue]
    split_ifs with hs
    · rfl
    · rw [reset, reset, onValueEach_reset]

theorem onValueAll_reset (cell : Cell) (code : ReturnCode) : ∀ es : List Evaluator,
    resetAll (onValueAll cell code es).2 = resetAll es
  | [] => rfl
  | e :: rest => by
    have he := onValue_reset cell e
    rw [onValueAll]
    split <;> rename_i h <;> rw [h] at he <;> simp only [resetAll] at he ⊢ <;> rw [he]
    all_goals rw [onValueAll_reset]

theorem onValueEach_reset (cell : Cell) : ∀ es : List Evaluator,
    resetAll (onValueEach cell es).2 = resetAll es
  | [] => rfl
  | e :: rest => by
    have he := onValue_reset cell e
    rw [onValueEach]
    split <;> rename_i h <;> rw [h] at he <;> simp only [resetAll] at he ⊢ <;> rw [he]
    rw [onValueEach_reset]

end

mutual

@[simp] theorem reset_reset : ∀ e : Evaluator, e.reset.reset = e.reset
  | .column _ _ => rfl
  | .group _ children => by rw [reset, reset, resetAll_resetAll]

@[simp] theorem resetAll_resetAll : ∀ es : List Evaluator, resetAll (resetAll es) = resetAll es
  | [] => rfl
  | e :: rest => by rw [resetAll, resetAll, reset_reset, resetAll_resetAll]

end

mutual

@[simp] theorem tests_reset : ∀ e : Evaluator, e.reset.tests = e.tests
  | .column _ _ => rfl
  | .group _ children => testsOf_resetAll children

@[simp] theorem testsOf_resetAll : ∀ es : List Evaluator, testsOf (resetAll es) = testsOf es
  | [] => rfl
  | e :: rest => by rw [resetAll, testsOf, testsOf, tests_reset, testsOf_resetAll]

end

mutual

@[simp] theorem holds_reset (row : List Cell) : ∀ e : Evaluator, e.reset.holds row = e.holds row
  | .column _ _ => rfl
  | .group .and children => by rw [reset, holds, holds, allHold_resetAll]
  | .group .or children => by rw [reset, holds, holds, anyHolds_resetAll]

@[simp] theorem allHold_resetAll (row : List Cell) : ∀ es : List Evaluator,
    allHold row (resetAll es) = allHold row es
  | [] => rfl
  | e :: rest => by rw [resetAll, allHold, allHold, holds_reset, allHold_resetAll]

@[simp] theorem anyHolds_resetAll (row : List Cell) : ∀ es : List Evaluator,
    anyHolds row (resetAll es) = anyHolds row es
  | [] => rfl
  | e :: rest => by rw [resetAll, anyHolds, anyHolds, holds_reset, anyHolds_resetAll]

end

mutual

/-- A filter that starts over is where the empty row leads. -/
theorem reset_current : ∀ e : Evaluator, e.reset.Current []
  | .column _ _ => rfl
  | .group .and children => (resetAll_current children).1
  | .group .or children => Or.inl (resetAll_current children).2

theorem resetAll_current : ∀ es : List Evaluator,
    CurrentUpTo [] (resetAll es) ∧ CurrentEach [] (resetAll es)
  | [] => ⟨trivial, trivial⟩
  | e :: rest =>
    have he := reset_current e
    have hr := resetAll_current rest
    ⟨⟨he, Or.inr hr.1⟩, he, hr.2⟩

end

/-- What a host may do with a filter between rows and inside them. -/
inductive Call where
  | value (cell : Cell)
  | reset

/-- The filter after a call, whether the call failed or not. -/
def call (e : Evaluator) : Call → Evaluator
  | .value cell => (onValue cell e).2
  | .reset => e.reset

theorem calls_reset (e : Evaluator) (history : List Call) :
    (history.foldl call e).reset = e.reset := by
  induction history generalizing e with
  | nil => rfl
  | cons first later ih =>
    rw [List.foldl_cons, ih]
    cases first with
    | value cell => exact onValue_reset cell e
    | reset => exact reset_reset e

/-! ### A row -/

/-- Feeds the cells of a row in order and leaves the row at the first code that does not ask for
more. -/
def drive : List Cell → Evaluator → Except FilterError Evaluator
  | [], e => .ok e
  | cell :: rest, e =>
    match onValue cell e with
    | (.error fault, _) => .error fault
    | (.ok .include, next) => drive rest next
    | (.ok _, next) => .ok next

/-- A row that every test can judge drives a current filter to the verdict on all that was seen. -/
theorem drive_current {seen : List Cell} : ∀ {row : List Cell} {e : Evaluator}, e.Current seen →
    Judged (seen ++ row) e.tests →
      ∃ last, drive row e = .ok last ∧ last.verdict = e.holds (seen ++ row)
  | [], e, hc, _ => ⟨e, rfl, by rw [List.append_nil]; exact hc.verdict_eq⟩
  | cell :: rest, e, hc, hj => by
    rw [← List.singleton_append, ← List.append_assoc] at hj
    obtain ⟨next, hv, hn, -⟩ := onValue_current hc hj.prefix
    have hr : next.reset = e.reset := by rw [← onValue_reset cell e, hv]
    have ht : next.tests = e.tests := by rw [← tests_reset, hr, tests_reset]
    have hh : ∀ row, next.holds row = e.holds row := fun row => by
      rw [← holds_reset, hr, holds_reset]
    rw [drive, hv, ← List.singleton_append, ← List.append_assoc, ← hh]
    by_cases hs : next.skips = true
    · rw [code, if_pos hs]
      exact ⟨next, rfl, by rw [verdict_of_skips hs, hn.not_holds hs]⟩
    · rw [code, if_neg hs]
      exact drive_current hn (ht ▸ hj)

/-- A leaf that gets through a row alone can judge its cells, also those after it has skipped. -/
theorem stateAfter_of_drive {test : ColumnTest} {seen row : List Cell} {state : RowState}
    {last : Evaluator} (hs : test.stateAfter seen = .ok state)
    (hd : drive row (.column test state) = .ok last) :
    ∃ final, test.stateAfter (seen ++ row) = .ok final := by
  induction row generalizing seen state with
  | nil => exact ⟨state, by rw [List.append_nil]; exact hs⟩
  | cons cell rest ih =>
    rw [drive, onValue] at hd
    cases hv : test.onValue state cell with
    | error fault => rw [hv] at hd; cases hd
    | ok answer =>
      obtain ⟨answer, next⟩ := answer
      rw [hv] at hd
      have hn : test.stateAfter (seen ++ [cell]) = .ok next := by
        rw [ColumnTest.stateAfter_concat, hs, ok_bind, hv]
        rfl
      rw [← List.singleton_append, ← List.append_assoc]
      by_cases hi : answer = .include
      · subst hi
        exact ih hn hd
      · exact ⟨next, ColumnTest.stateAfter_of_settled hn (ColumnTest.isSettled_of_onValue hv hi) rest⟩

end Evaluator

end CellFilter
