import CellFilter.Proofs.Filter.Simulation
import CellFilter.Proofs.Filter.Verdict

/-!
# Rows that are settled

A filter may know the verdict before the end of a row.  A satisfied filter includes every further cell
and stays as it is.  A filter that asked to leave the row has given it up, which no further cell takes
back, be it one that the filter fails at; and since a disjunction that is satisfied includes every
further cell and passes the row, whatever its filters come to, it makes no difference whether it goes
on asking them.

* `onValue_of_isSatisfied`: a satisfied filter and a further cell.
* `code_of_onValue`, `onValue_skips`: giving up is what skips, and it is for good.
* `Takes`, `Runs`: cells and rows with disjunctions that may ask their filters or not, once one of them
  is satisfied.
* `report_of_runs`: a filter says about a row what every such run says.
* `settled_row`: **what is settled stays settled**.
-/

namespace CellFilter

open Outcome

namespace Evaluator

/-- The filter after some cells, whether it failed at them or not. -/
def after (e : Evaluator) (cells : List Cell) : Evaluator :=
  cells.foldl (fun e cell => (onValue cell e).2) e

theorem after_keeps {P : Evaluator → Prop} (hstep : ∀ cell e, P e → P (onValue cell e).2)
    {e : Evaluator} (h : P e) (cells : List Cell) : P (e.after cells) := by
  induction cells generalizing e with
  | nil => exact h
  | cons cell rest ih => exact ih (hstep cell e h)

/-! ## Satisfied filters -/

theorem onValue_of_anySatisfied (cell : Cell) {es : List Evaluator} (h : anySatisfied es = true) :
    onValue cell (.group .or es) = (.ok .include, .group .or es) := by
  rw [onValue, if_pos h]

mutual

/-- **A satisfied filter** includes a further cell and stays as it is. -/
theorem onValue_of_isSatisfied (cell : Cell) : ∀ {e : Evaluator}, e.isSatisfied = true →
    onValue cell e = (.ok .include, e)
  | .column test state, h => by
    obtain rfl : state = .matched := by simpa [isSatisfied] using h
    rw [onValue, ColumnTest.onValue_settled rfl]
    rfl
  | .group .and _, h => by
    rw [isSatisfied, Bool.and_eq_true] at h
    rw [onValue, onValueAll_of_allSatisfied cell h.2]
  | .group .or _, h => onValue_of_anySatisfied cell h

theorem onValueAll_of_allSatisfied (cell : Cell) : ∀ {es : List Evaluator},
    allSatisfied es = true → onValueAll cell .include es = (.ok .include, es)
  | [], _ => rfl
  | e :: rest, h => by
    rw [allSatisfied, Bool.and_eq_true] at h
    rw [onValueAll, onValue_of_isSatisfied cell h.1, onValueAll_of_allSatisfied cell h.2]

end

/-! ## Filters that have given up -/

mutual

/-- **The code of a filter** that did not fail says whether it has given up. -/
theorem code_of_onValue {cell : Cell} : ∀ {e next : Evaluator} {c : ReturnCode},
    onValue cell e = (.ok c, next) → c = next.code
  | .column test state, next, c, h => by
    rw [onValue] at h
    cases hv : test.onValue state cell with
    | error fault => rw [hv] at h; cases h
    | ok answer =>
      rw [hv] at h
      cases h
      exact code_of_column hv
  | .group .and children, next, c, h => by
    rw [onValue] at h
    cases hv : onValueAll cell .include children with
    | mk answer others =>
      rw [hv] at h
      cases h
      exact code_of_onValueAll hv
  | .group .or children, next, c, h => by
    rw [onValue] at h
    split_ifs at h with hs
    · cases h
      rw [code, skips, allSkip_eq_false children hs]
      rfl
    · cases hv : onValueEach cell children with
      | mk answer others =>
        rw [hv] at h
        cases answer with
        | error fault => cases h
        | ok codes =>
          cases h
          rw [code_of_onValueEach hv, joinAny_codes, code, skips]

theorem code_of_onValueAll {cell : Cell} : ∀ {es next : List Evaluator} {c : ReturnCode},
    onValueAll cell .include es = (.ok c, next) →
      c = if anySkip next then .skipRow else .include
  | [], next, c, h => by
    cases h
    rfl
  | e :: rest, next, c, h => by
    rw [onValueAll] at h
    cases hv : onValue cell e with
    | mk answer after =>
      rw [hv] at h
      cases answer with
      | error fault => cases h
      | ok first =>
        have hcode := code_of_onValue hv
        unfold code at hcode
        split_ifs at hcode with hskips
        · subst hcode
          cases h
          rw [anySkip, hskips, Bool.true_or]
          rfl
        · subst hcode
          cases hrest : onValueAll cell .include rest with
          | mk answer others =>
            simp only [hrest] at h
            cases h
            rw [code_of_onValueAll hrest, anySkip, Bool.eq_false_iff.mpr hskips, Bool.false_or]

theorem code_of_onValueEach {cell : Cell} : ∀ {es next : List Evaluator} {codes : List ReturnCode},
    onValueEach cell es = (.ok codes, next) → codes = next.map code
  | [], next, codes, h => by
    cases h
    rfl
  | e :: rest, next, codes, h => by
    rw [onValueEach] at h
    cases hv : onValue cell e with
    | mk answer after =>
      rw [hv] at h
      cases answer with
      | error fault => cases h
      | ok first =>
        cases hrest : onValueEach cell rest with
        | mk answer others =>
          simp only [hrest] at h
          cases answer with
          | error fault => cases h
          | ok later =>
            cases h
            rw [List.map_cons, code_of_onValue hv, code_of_onValueEach hrest]

end

mutual

/-- **A filter that has given up** does not take it back, whether it fails at a cell or not. -/
theorem onValue_skips (cell : Cell) : ∀ {e : Evaluator}, e.skips = true →
    (onValue cell e).2.skips = true
  | .column test state, h => by
    have hsettled : test.isSettled state = true := by
      rw [skips, Bool.and_eq_true, beq_iff_eq] at h
      obtain ⟨rfl, hlatest⟩ := h
      exact hlatest
    rw [onValue, ColumnTest.onValue_settled hsettled]
    exact h
  | .group .and _, h => by
    rw [onValue]
    exact onValueAll_anySkip cell .include h
  | .group .or children, h => by
    rw [onValue]
    split_ifs with hs
    · exact h
    · exact onValueEach_allSkip cell h

theorem onValueAll_anySkip (cell : Cell) (code : ReturnCode) : ∀ {es : List Evaluator},
    anySkip es = true → anySkip (onValueAll cell code es).2 = true
  | e :: rest, h => by
    rw [anySkip, Bool.or_eq_true] at h
    have hfirst : e.skips = true → (onValue cell e).2.skips = true := onValue_skips cell
    have hrest : ∀ code, anySkip rest = true → anySkip (onValueAll cell code rest).2 = true :=
      fun code => onValueAll_anySkip cell code
    rw [onValueAll]
    cases hv : onValue cell e with
    | mk answer next =>
      rw [hv] at hfirst
      -- the filters behind the first stay as they are or are asked, and keep it in either case
      rcases answer with fault | (_ | _ | _) <;> dsimp only <;> rw [anySkip, Bool.or_eq_true]
      · exact h.imp_left hfirst
      · exact h.imp hfirst (hrest _)
      · exact h.imp hfirst (hrest _)
      · exact h.imp_left hfirst

theorem onValueEach_allSkip (cell : Cell) : ∀ {es : List Evaluator}, allSkip es = true →
    allSkip (onValueEach cell es).2 = true
  | [], _ => rfl
  | e :: rest, h => by
    rw [allSkip, Bool.and_eq_true] at h
    have hfirst := onValue_skips cell h.1
    have hrest := onValueEach_allSkip cell h.2
    rw [onValueEach]
    cases hv : onValue cell e with
    | mk answer next =>
      rw [hv] at hfirst
      cases answer <;> dsimp only <;> rw [allSkip, Bool.and_eq_true]
      · exact ⟨hfirst, h.2⟩
      · exact ⟨hfirst, hrest⟩

end

theorem skips_of_onValue {cell : Cell} {e next : Evaluator}
    (h : onValue cell e = (.ok .skipRow, next)) : next.skips = true := by
  have hcode := code_of_onValue h
  unfold code at hcode
  split_ifs at hcode with hskips
  exact hskips

/-! ## Disjunctions that go on asking -/

mutual

/-- Takes a cell without an error.  A disjunction may ask its filters whether or not one of them is
satisfied, and need not if one is. -/
inductive Takes (cell : Cell) : Evaluator → ReturnCode → Evaluator → Prop
  | column {test : ColumnTest} {state next : RowState} {code : ReturnCode} :
      test.onValue state cell = .ok (code, next) →
      Takes cell (.column test state) code (.column test next)
  | and {es next : List Evaluator} {code : ReturnCode} : TakesAll cell es code next →
      Takes cell (.group .and es) code (.group .and next)
  | ask {es next : List Evaluator} {codes : List ReturnCode} : TakesEach cell es codes next →
      Takes cell (.group .or es) (joinAny codes) (.group .or next)
  | ignore {es : List Evaluator} : anySatisfied es = true →
      Takes cell (.group .or es) .include (.group .or es)

/-- Asks filters until one skips the row; they answer with no other codes, by `code_of_onValue`. -/
inductive TakesAll (cell : Cell) : List Evaluator → ReturnCode → List Evaluator → Prop
  | nil : TakesAll cell [] .include []
  | stop {e next : Evaluator} {rest : List Evaluator} : Takes cell e .skipRow next →
      TakesAll cell (e :: rest) .skipRow (next :: rest)
  | cons {e next : Evaluator} {rest others : List Evaluator} {code : ReturnCode} :
      Takes cell e .include next → TakesAll cell rest code others →
      TakesAll cell (e :: rest) code (next :: others)

/-- Asks every filter for its code. -/
inductive TakesEach (cell : Cell) : List Evaluator → List ReturnCode → List Evaluator → Prop
  | nil : TakesEach cell [] [] []
  | cons {e next : Evaluator} {rest others : List Evaluator} {code : ReturnCode}
      {codes : List ReturnCode} : Takes cell e code next → TakesEach cell rest codes others →
      TakesEach cell (e :: rest) (code :: codes) (next :: others)

end

/-- Takes the cells of a row without an error, with a code for each of them. -/
inductive Runs : List Cell → Evaluator → List ReturnCode → Evaluator → Prop
  | nil (e : Evaluator) : Runs [] e [] e
  | cons {cell : Cell} {row : List Cell} {e next last : Evaluator} {code : ReturnCode}
      {codes : List ReturnCode} : Takes cell e code next → Runs row next codes last →
      Runs (cell :: row) e (code :: codes) last

mutual

/-- A filter that does not fail at a cell takes it. -/
theorem Takes.of_onValue {cell : Cell} : ∀ {e next : Evaluator} {c : ReturnCode},
    onValue cell e = (.ok c, next) → Takes cell e c next
  | .column test state, next, c, h => by
    rw [onValue] at h
    cases hv : test.onValue state cell with
    | error fault => rw [hv] at h; cases h
    | ok answer =>
      rw [hv] at h
      cases h
      exact .column hv
  | .group .and children, next, c, h => by
    rw [onValue] at h
    cases hv : onValueAll cell .include children with
    | mk answer others =>
      rw [hv] at h
      cases h
      exact .and (TakesAll.of_onValueAll hv)
  | .group .or children, next, c, h => by
    rw [onValue] at h
    split_ifs at h with hs
    · cases h
      exact .ignore hs
    · cases hv : onValueEach cell children with
      | mk answer others =>
        rw [hv] at h
        cases answer with
        | error fault => cases h
        | ok codes =>
          cases h
          exact .ask (TakesEach.of_onValueEach hv)

theorem TakesAll.of_onValueAll {cell : Cell} : ∀ {es next : List Evaluator} {c : ReturnCode},
    onValueAll cell .include es = (.ok c, next) → TakesAll cell es c next
  | [], next, c, h => by
    cases h
    exact .nil
  | e :: rest, next, c, h => by
    rw [onValueAll] at h
    cases hv : onValue cell e with
    | mk answer after =>
      rw [hv] at h
      cases answer with
      | error fault => cases h
      | ok first =>
        have htakes := Takes.of_onValue hv
        have hcode := code_of_onValue hv
        unfold code at hcode
        split_ifs at hcode <;> subst hcode
        · cases h
          exact .stop htakes
        · cases hrest : onValueAll cell .include rest with
          | mk answer others =>
            simp only [hrest] at h
            cases h
            exact .cons htakes (TakesAll.of_onValueAll hrest)

theorem TakesEach.of_onValueEach {cell : Cell} : ∀ {es next : List Evaluator}
    {codes : List ReturnCode}, onValueEach cell es = (.ok codes, next) →
      TakesEach cell es codes next
  | [], next, codes, h => by
    cases h
    exact .nil
  | e :: rest, next, codes, h => by
    rw [onValueEach] at h
    cases hv : onValue cell e with
    | mk answer after =>
      rw [hv] at h
      cases answer with
      | error fault => cases h
      | ok first =>
        cases hrest : onValueEach cell rest with
        | mk answer others =>
          simp only [hrest] at h
          cases answer with
          | error fault => cases h
          | ok later =>
            cases h
            exact .cons (Takes.of_onValue hv) (TakesEach.of_onValueEach hrest)

end

mutual

/-- A satisfied filter includes the cell and stays satisfied, also if it asks. -/
theorem Takes.of_isSatisfied {cell : Cell} : ∀ {e next : Evaluator} {c : ReturnCode},
    Takes cell e c next → e.isSatisfied = true → c = .include ∧ next.isSatisfied = true
  | _, _, _, @Takes.column _ test state _ _ hv, h => by
    obtain rfl : state = .matched := by simpa [isSatisfied] using h
    rw [ColumnTest.onValue_settled rfl] at hv
    cases hv
    exact ⟨rfl, rfl⟩
  | _, _, _, .and ht, h => by
    rw [isSatisfied, Bool.and_eq_true] at h
    obtain ⟨hc, hempty, hnext⟩ := ht.of_allSatisfied h.2
    refine ⟨hc, ?_⟩
    rw [isSatisfied, hempty, h.1, hnext]
    rfl
  | _, _, _, .ask ht, h => by
    obtain ⟨hc, hnext⟩ := ht.of_anySatisfied h
    exact ⟨if_pos hc, hnext⟩
  | _, _, _, .ignore hs, _ => ⟨rfl, hs⟩

theorem TakesAll.of_allSatisfied {cell : Cell} : ∀ {es next : List Evaluator} {c : ReturnCode},
    TakesAll cell es c next → allSatisfied es = true →
      c = .include ∧ next.isEmpty = es.isEmpty ∧ allSatisfied next = true
  | _, _, _, .nil, _ => ⟨rfl, rfl, rfl⟩
  | _, _, _, .stop ht, h => by
    rw [allSatisfied, Bool.and_eq_true] at h
    cases (ht.of_isSatisfied h.1).1
  | _, _, _, .cons ht hrest, h => by
    rw [allSatisfied, Bool.and_eq_true] at h
    obtain ⟨-, hnext⟩ := ht.of_isSatisfied h.1
    obtain ⟨hc, -, hothers⟩ := hrest.of_allSatisfied h.2
    refine ⟨hc, rfl, ?_⟩
    rw [allSatisfied, hnext, hothers]
    rfl

theorem TakesEach.of_anySatisfied {cell : Cell} : ∀ {es next : List Evaluator}
    {codes : List ReturnCode}, TakesEach cell es codes next → anySatisfied es = true →
      codes.contains .include = true ∧ anySatisfied next = true
  | _, _, _, .cons ht hrest, h => by
    rw [anySatisfied, Bool.or_eq_true] at h
    rcases h with h | h
    · obtain ⟨rfl, hnext⟩ := ht.of_isSatisfied h
      refine ⟨rfl, ?_⟩
      rw [anySatisfied, hnext, Bool.true_or]
    · obtain ⟨hc, hothers⟩ := hrest.of_anySatisfied h
      refine ⟨?_, ?_⟩
      · rw [List.contains_cons, hc, Bool.or_true]
      · rw [anySatisfied, hothers, Bool.or_true]

end

mutual

/-- A filter in two states that differ below satisfied disjunctions only. -/
inductive Agree : Evaluator → Evaluator → Prop
  | column (test : ColumnTest) (state : RowState) : Agree (.column test state) (.column test state)
  | group {op : Operator} {es es' : List Evaluator} : AgreeEach es es' →
      Agree (.group op es) (.group op es')
  | satisfied {es es' : List Evaluator} : anySatisfied es = true → anySatisfied es' = true →
      Agree (.group .or es) (.group .or es')

/-- Filters beside each other that agree one by one. -/
inductive AgreeEach : List Evaluator → List Evaluator → Prop
  | nil : AgreeEach [] []
  | cons {e e' : Evaluator} {es es' : List Evaluator} : Agree e e' → AgreeEach es es' →
      AgreeEach (e :: es) (e' :: es')

end

mutual

theorem Agree.refl : ∀ e : Evaluator, Agree e e
  | .column test state => .column test state
  | .group _ es => .group (AgreeEach.refl es)

theorem AgreeEach.refl : ∀ es : List Evaluator, AgreeEach es es
  | [] => .nil
  | e :: rest => .cons (Agree.refl e) (AgreeEach.refl rest)

end

mutual

theorem Agree.isSatisfied_eq : ∀ {e e' : Evaluator}, Agree e e' → e.isSatisfied = e'.isSatisfied
  | _, _, .column _ _ => rfl
  | .group .and _, _, .group h => by
    rw [isSatisfied, isSatisfied, h.isEmpty_eq, h.allSatisfied_eq]
  | .group .or _, _, .group h => h.anySatisfied_eq
  | _, _, .satisfied h h' => h.trans h'.symm

theorem AgreeEach.isEmpty_eq : ∀ {es es' : List Evaluator}, AgreeEach es es' →
    es.isEmpty = es'.isEmpty
  | _, _, .nil => rfl
  | _, _, .cons _ _ => rfl

theorem AgreeEach.allSatisfied_eq : ∀ {es es' : List Evaluator}, AgreeEach es es' →
    allSatisfied es = allSatisfied es'
  | _, _, .nil => rfl
  | _, _, .cons h hs => by
    rw [allSatisfied, allSatisfied, h.isSatisfied_eq, hs.allSatisfied_eq]

theorem AgreeEach.anySatisfied_eq : ∀ {es es' : List Evaluator}, AgreeEach es es' →
    anySatisfied es = anySatisfied es'
  | _, _, .nil => rfl
  | _, _, .cons h hs => by
    rw [anySatisfied, anySatisfied, h.isSatisfied_eq, hs.anySatisfied_eq]

end

mutual

theorem Agree.verdict_eq : ∀ {e e' : Evaluator}, Agree e e' → e.verdict = e'.verdict
  | _, _, .column _ _ => rfl
  | .group .and _, _, .group h => h.allPass_eq
  | .group .or _, _, .group h => h.anyPass_eq
  | _, _, .satisfied h h' => by
    rw [verdict, verdict, anyPass_of_anySatisfied h, anyPass_of_anySatisfied h']

theorem AgreeEach.allPass_eq : ∀ {es es' : List Evaluator}, AgreeEach es es' →
    allPass es = allPass es'
  | _, _, .nil => rfl
  | _, _, .cons h hs => by rw [allPass, allPass, h.verdict_eq, hs.allPass_eq]

theorem AgreeEach.anyPass_eq : ∀ {es es' : List Evaluator}, AgreeEach es es' →
    anyPass es = anyPass es'
  | _, _, .nil => rfl
  | _, _, .cons h hs => by rw [anyPass, anyPass, h.verdict_eq, hs.anyPass_eq]

end

mutual

/-- **One cell** that a filter takes gets the same code from a filter that agrees with it, and the two
agree afterwards. -/
theorem Agree.onValue {cell : Cell} : ∀ {e e' next : Evaluator} {c : ReturnCode}, Agree e e' →
    Takes cell e' c next → ∃ after, onValue cell e = (.ok c, after) ∧ Agree after next
  | _, _, _, c, .column test state, @Takes.column _ _ _ next _ hv =>
    ⟨.column test next, by rw [Evaluator.onValue, hv], .column test next⟩
  | _, _, _, c, .group h, .and ht => by
    obtain ⟨after, hv, hagree⟩ := h.onValueAll ht
    exact ⟨.group .and after, by rw [Evaluator.onValue, hv], .group hagree⟩
  | .group .or es, _, _, _, .group h, .ask ht => by
    by_cases hs : anySatisfied es = true
    -- the filter that agrees does not ask, and what the other one is told does not matter
    · obtain ⟨hc, hnext⟩ := ht.of_anySatisfied (h.anySatisfied_eq ▸ hs)
      refine ⟨.group .or es, ?_, .satisfied hs hnext⟩
      rw [onValue_of_anySatisfied cell hs, joinAny, if_pos hc]
    · obtain ⟨after, hv, hagree⟩ := h.onValueEach ht
      refine ⟨.group .or after, ?_, .group hagree⟩
      rw [Evaluator.onValue, if_neg hs, hv]
      rfl
  | .group .or es, _, _, _, .group h, .ignore hs' => by
    have hs : anySatisfied es = true := h.anySatisfied_eq ▸ hs'
    exact ⟨.group .or es, onValue_of_anySatisfied cell hs, .satisfied hs hs'⟩
  | .group .or es, _, _, _, .satisfied hs hs', .ask ht => by
    obtain ⟨hc, hnext⟩ := ht.of_anySatisfied hs'
    refine ⟨.group .or es, ?_, .satisfied hs hnext⟩
    rw [onValue_of_anySatisfied cell hs, joinAny, if_pos hc]
  | .group .or es, _, _, _, .satisfied hs hs', .ignore _ =>
    ⟨.group .or es, onValue_of_anySatisfied cell hs, .satisfied hs hs'⟩

theorem AgreeEach.onValueAll {cell : Cell} : ∀ {es es' next : List Evaluator} {c : ReturnCode},
    AgreeEach es es' → TakesAll cell es' c next →
      ∃ after, onValueAll cell .include es = (.ok c, after) ∧ AgreeEach after next
  | _, _, _, _, .nil, .nil => ⟨[], rfl, .nil⟩
  | _, _, _, _, @AgreeEach.cons _ _ es _ h hs, .stop ht => by
    obtain ⟨after, hv, hagree⟩ := h.onValue ht
    exact ⟨after :: es, by rw [Evaluator.onValueAll, hv], .cons hagree hs⟩
  | _, _, _, _, .cons h hs, .cons ht hrest => by
    obtain ⟨after, hv, hagree⟩ := h.onValue ht
    obtain ⟨others, hvs, hagrees⟩ := hs.onValueAll hrest
    exact ⟨after :: others, by rw [Evaluator.onValueAll, hv, hvs], .cons hagree hagrees⟩

theorem AgreeEach.onValueEach {cell : Cell} : ∀ {es es' next : List Evaluator}
    {codes : List ReturnCode}, AgreeEach es es' → TakesEach cell es' codes next →
      ∃ after, onValueEach cell es = (.ok codes, after) ∧ AgreeEach after next
  | _, _, _, _, .nil, .nil => ⟨[], rfl, .nil⟩
  | _, _, _, _, .cons h hs, .cons ht hrest => by
    obtain ⟨after, hv, hagree⟩ := h.onValue ht
    obtain ⟨others, hvs, hagrees⟩ := hs.onValueEach hrest
    exact ⟨after :: others, by rw [Evaluator.onValueEach, hv, hvs]; rfl, .cons hagree hagrees⟩

end

/-- **A row with disjunctions that go on asking** gets the codes and the verdict that it gets without. -/
theorem report_of_runs {row : List Cell} {e e' last : Evaluator} {codes : List ReturnCode}
    (hrun : Runs row e' codes last) (h : Agree e e') :
    report row e = (codes.map some, last.verdict) := by
  induction hrun generalizing e with
  | nil e' => rw [report, h.verdict_eq, List.map_nil]
  | cons ht _ ih =>
    obtain ⟨after, hv, hagree⟩ := h.onValue ht
    rw [report, hv, ih hagree]
    rfl

/-! ## What is settled -/

/-- **What is settled stays settled**, in a filter of any shape and in any state.  A satisfied filter
passes the row and includes every further cell without a change.  A filter that asked to leave the row
fails it, whatever cells follow and whether or not it fails at them, and where it does not, it asks to
leave the row again.  Besides taking cells as it does, a filter might let its disjunctions go on asking
their filters once one of those is satisfied: if that gives no errors, then the row gets the same codes
and the same verdict. -/
theorem settled_row (e : Evaluator) :
    (e.isSatisfied = true → e.verdict = true ∧
      (∀ cell, onValue cell e = (.ok .include, e)) ∧
      ∀ later, (e.after later).isSatisfied = true ∧ (e.after later).verdict = true) ∧
    (∀ cell next, onValue cell e = (.ok .skipRow, next) → ∀ later,
      (next.after later).verdict = false ∧
      ∀ cell code last, onValue cell (next.after later) = (.ok code, last) → code = .skipRow) ∧
    (∀ cell code next, onValue cell e = (.ok code, next) → Takes cell e code next) ∧
    ∀ row codes last, Runs row e codes last → report row e = (codes.map some, last.verdict) := by
  refine ⟨fun h => ?_, fun cell next h later => ?_, fun _ _ _ => Takes.of_onValue,
    fun row codes last hrun => ?_⟩
  · have hsame : ∀ cell, onValue cell e = (.ok .include, e) := fun _ => onValue_of_isSatisfied _ h
    have hlater : ∀ later, (e.after later).isSatisfied = true :=
      after_keeps (P := fun e => e.isSatisfied = true)
        (fun cell e he => by rw [onValue_of_isSatisfied cell he]; exact he) h
    exact ⟨verdict_of_isSatisfied h, hsame,
      fun later => ⟨hlater later, verdict_of_isSatisfied (hlater later)⟩⟩
  · have hskips : (next.after later).skips = true :=
      after_keeps (P := fun e => e.skips = true) (fun cell _ he => onValue_skips cell he)
        (skips_of_onValue h) later
    refine ⟨verdict_of_skips hskips, fun cell code last hlast => ?_⟩
    have hagain := onValue_skips cell hskips
    rw [hlast] at hagain
    rw [code_of_onValue hlast, Evaluator.code, if_pos hagain]
  · exact report_of_runs hrun (Agree.refl e)

/-- The test of the flag, with a row that any value may decide. -/
def anyFlagTest (value : Int32) : ColumnTest where
  predicate := { flagTest.predicate with latestVersionOnly := false }
  schema := flagSchema
  wanted := .message ⟨flagSchema, [(1, .atom (.i32 value))]⟩

/-- A flag, or bytes that are no message. -/
def flagCell (value : Bytes) : Cell := ⟨[102], [113], value⟩

/-- A disjunction with a satisfied filter and another one. -/
def flagEither (second : RowState) : Evaluator :=
  .group .or [.column flagTest .matched, .column (anyFlagTest 2) second]

/-- A conjunction that leaves the row at a flag that is not set, because of its second filter. -/
def flagBoth (first second : RowState) : Evaluator :=
  .group .and [.column (anyFlagTest 1) first, .group .or [.column flagTest second]]

/-- A satisfied filter at a cell that is no message; a row that is left, at a cell at which the filter
then fails and at one at which it does not; and a disjunction that goes on asking. -/
theorem settled_row_flags :
    (flagEither .unmatched).isSatisfied = true ∧ (flagEither .unmatched).verdict = true ∧
    onValue (flagCell [8]) (flagEither .unmatched) = (.ok .include, flagEither .unmatched) ∧
    onValue (flagCell []) (flagBoth .notFound .notFound) =
      (.ok .skipRow, flagBoth .unmatched .unmatched) ∧
    (onValue (flagCell [8]) (flagBoth .unmatched .unmatched)).1.toOption = none ∧
    ((flagBoth .unmatched .unmatched).after [flagCell [8], flagCell [8, 1]]).verdict = false ∧
    Runs [flagCell [8, 2]] (flagEither .unmatched) [.include] (flagEither .matched) ∧
    report [flagCell [8, 2]] (flagEither .unmatched) = ([some .include], true) := by
  have hsatisfied : (flagEither .unmatched).isSatisfied = true := rfl
  have hleft : onValue (flagCell []) (flagBoth .notFound .notFound) =
    (.ok .skipRow, flagBoth .unmatched .unmatched) := rfl
  have hasked : (anyFlagTest 2).onValue .unmatched (flagCell [8, 2]) = .ok (.include, .matched) := by
    decide +kernel
  have hrun : Runs [flagCell [8, 2]] (flagEither .unmatched) [.include] (flagEither .matched) :=
    .cons (@Takes.ask _ _ _ [.include, .include]
      (.cons (.column rfl) (.cons (.column hasked) .nil))) (.nil _)
  obtain ⟨hpasses, -, -, hreport⟩ := settled_row (flagEither .unmatched)
  obtain ⟨-, hfails, -, -⟩ := settled_row (flagBoth .notFound .notFound)
  obtain ⟨hverdict, hsame, -⟩ := hpasses hsatisfied
  exact ⟨hsatisfied, hverdict, hsame _, hleft, rfl, (hfails _ _ hleft _).1, hrun,
    hreport _ _ _ hrun⟩

end Evaluator

end CellFilter
