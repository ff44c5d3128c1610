import CellFilter.Proofs.Filter.Row
import CellFilter.Proofs.Message.Matching

/-!
# Filters over isomorphic schemas

Two filters of one tree, made ready with isomorphic schemas, answer every call alike.

* `SameTest`, `SameEvaluator`: tests and filters in the same state over isomorphic schemas.
* `onValue_same`: a cell keeps them so, and gets the same code or an error from both.
* `report_eq`: both say the same about a whole row.
-/

namespace CellFilter

open Outcome Schema

/-- The same thing looked for in values of isomorphic schemas. -/
inductive SameWanted (s t : Schema) : Wanted → Wanted → Prop
  | field (operand? : Option Scalar) : SameWanted s t (.field operand?) (.field operand?)
  | message {m n : Message} : SameMessage m n → m.schema = s → n.schema = t →
      SameWanted s t (.message m) (.message n)

/-- Tests of one predicate over isomorphic schemas. -/
structure SameTest (a b : ColumnTest) : Prop where
  predicate : a.predicate = b.predicate
  isomorphic : a.schema.Isomorphic b.schema
  left : a.schema.pool.Built
  right : b.schema.pool.Built
  wanted : SameWanted a.schema b.schema a.wanted b.wanted

namespace ColumnPredicate

theorem wantedIn_alike (p : ColumnPredicate) {s t : Schema} (h : s.Isomorphic t) :
    Alike (SameWanted s t) (p.wantedIn s) (p.wantedIn t) := by
  have hmessage : ∀ encoded, Alike (SameWanted s t) ((Message.decode s encoded).map .message)
      ((Message.decode t encoded).map .message) := fun encoded =>
    (Message.decode_alike h encoded).map fun m n hmn => .message hmn.1 hmn.2.1 hmn.2.2
  unfold wantedIn
  cases p.operand? with
  | none =>
    cases p.matchOp with
    | scalar =>
      show Alike _ (if p.comparator?.isNone then _ else _) (if p.comparator?.isNone then _ else _)
      split
      · exact alike_error
      · exact .field none
    | _ => exact alike_error
  | some operand =>
    cases operand with
    | scalar value =>
      cases p.matchOp with
      | scalar => exact .field (some value)
      | _ => exact alike_error
    | message encoded =>
      cases p.matchOp with
      | scalar => exact alike_error
      | _ => exact hmessage encoded

end ColumnPredicate

namespace ColumnTest

variable {a b : ColumnTest}

theorem accepts_alike (h : SameTest a b) (value : Bytes) :
    Alike Eq (a.accepts value) (b.accepts value) := by
  unfold accepts
  refine (Message.decode_alike h.isomorphic value).bind ?_
  rintro m n ⟨hmn, hm, hn⟩
  rw [h.predicate]
  have hwanted := h.wanted
  have hs := h.left
  have ht := h.right
  generalize a.wanted = w, b.wanted = w' at hwanted
  cases hwanted with
  | field operand? => exact Path.compare_alike hmn _ _ _ _
  | message ho hos hot =>
    rw [← hm] at hos hs
    rw [← hn] at hot ht
    exact Alike.of_eq (Message.matchBy_eq _ ho hmn hos hot hs ht)

theorem isSettled_eq (h : SameTest a b) (state : RowState) :
    a.isSettled state = b.isSettled state := by
  unfold isSettled
  rw [h.predicate]

theorem concerns_eq (h : SameTest a b) (cell : Cell) : a.concerns cell = b.concerns cell := by
  unfold concerns
  rw [h.predicate]

theorem missCode_eq (h : SameTest a b) : a.missCode = b.missCode := by
  unfold missCode
  rw [h.predicate]

theorem codeFor_eq (h : SameTest a b) (state : RowState) : a.codeFor state = b.codeFor state := by
  unfold codeFor
  rw [missCode_eq h]

theorem onValue_alike (h : SameTest a b) (state : RowState) (cell : Cell) :
    Alike Eq (a.onValue state cell) (b.onValue state cell) := by
  unfold onValue
  rw [isSettled_eq h, concerns_eq h, missCode_eq h, codeFor_eq h]
  by_cases hs : b.isSettled state = true
  · rw [if_pos hs, if_pos hs]
    exact Alike.refl _
  · rw [if_neg hs, if_neg hs]
    by_cases hc : (!b.concerns cell) = true
    · rw [if_pos hc, if_pos hc]
      exact Alike.refl _
    · rw [if_neg hc, if_neg hc]
      refine (accepts_alike h cell.value).bind ?_
      rintro accepted _ rfl
      exact Alike.refl _

theorem verdict_eq (h : SameTest a b) (state : RowState) : a.verdict state = b.verdict state := by
  unfold verdict
  rw [h.predicate]

end ColumnTest

mutual

/-- Filters of one tree in the same state over isomorphic schemas. -/
inductive SameEvaluator : Evaluator → Evaluator → Prop
  | column {a b : ColumnTest} (state : RowState) : SameTest a b →
      SameEvaluator (.column a state) (.column b state)
  | group {op : Operator} {es es' : List Evaluator} : SameEvaluators es es' →
      SameEvaluator (.group op es) (.group op es')

/-- Filters beside each other, one by one. -/
inductive SameEvaluators : List Evaluator → List Evaluator → Prop
  | nil : SameEvaluators [] []
  | cons {e e' : Evaluator} {es es' : List Evaluator} : SameEvaluator e e' → SameEvaluators es es' →
      SameEvaluators (e :: es) (e' :: es')

end

namespace Evaluator

/-! ## States that are looked at -/

mutual

theorem isSatisfied_eq : ∀ {e e' : Evaluator}, SameEvaluator e e' → e.isSatisfied = e'.isSatisfied
  | _, _, .column _ _ => rfl
  | .group .and _, _, .group h => by
    rw [isSatisfied, isSatisfied, allSatisfied_eq h, isEmpty_eq h]
  | .group .or _, _, .group h => by
    rw [isSatisfied, isSatisfied, anySatisfied_eq h]

theorem isEmpty_eq : ∀ {es es' : List Evaluator}, SameEvaluators es es' → es.isEmpty = es'.isEmpty
  | _, _, .nil => rfl
  | _, _, .cons _ _ => rfl

theorem allSatisfied_eq : ∀ {es es' : List Evaluator}, SameEvaluators es es' →
    allSatisfied es = allSatisfied es'
  | _, _, .nil => rfl
  | _, _, .cons h hs => by
    rw [allSatisfied, allSatisfied, isSatisfied_eq h, allSatisfied_eq hs]

theorem anySatisfied_eq : ∀ {es es' : List Evaluator}, SameEvaluators es es' →
    anySatisfied es = anySatisfied es'
  | _, _, .nil => rfl
  | _, _, .cons h hs => by
    rw [anySatisfied, anySatisfied, isSatisfied_eq h, anySatisfied_eq hs]

end

mutual

theorem verdict_eq : ∀ {e e' : Evaluator}, SameEvaluator e e' → e.verdict = e'.verdict
  | _, _, .column state h => ColumnTest.verdict_eq h state
  | .group .and _, _, .group h => by rw [verdict, verdict, allPass_eq h]
  | .group .or _, _, .group h => by rw [verdict, verdict, anyPass_eq h]

theorem allPass_eq : ∀ {es es' : List Evaluator}, SameEvaluators es es' → allPass es = allPass es'
  | _, _, .nil => rfl
  | _, _, .cons h hs => by rw [allPass, allPass, verdict_eq h, allPass_eq hs]

theorem anyPass_eq : ∀ {es es' : List Evaluator}, SameEvaluators es es' → anyPass es = anyPass es'
  | _, _, .nil => rfl
  | _, _, .cons h hs => by rw [anyPass, anyPass, verdict_eq h, anyPass_eq hs]

end

mutual

theorem reset_same : ∀ {e e' : Evaluator}, SameEvaluator e e' → SameEvaluator e.reset e'.reset
  | _, _, .column _ h => .column .notFound h
  | _, _, .group h => .group (resetAll_same h)

theorem resetAll_same : ∀ {es es' : List Evaluator}, SameEvaluators es es' →
    SameEvaluators (resetAll es) (resetAll es')
  | _, _, .nil => .nil
  | _, _, .cons h hs => .cons (reset_same h) (resetAll_same hs)

end

/-! ## Cells -/

/-- The same answer, or a failure on both sides, and related states afterwards. -/
inductive SameAnswer {α σ : Type} (r : σ → σ → Prop) :
    Except FilterError α × σ → Except FilterError α × σ → Prop
  | failed {fault fault' : FilterError} {s s' : σ} : r s s' →
      SameAnswer r (.error fault, s) (.error fault', s')
  | answered (a : α) {s s' : σ} : r s s' → SameAnswer r (.ok a, s) (.ok a, s')

theorem SameAnswer.states {α σ : Type} {r : σ → σ → Prop} {x y : Except FilterError α × σ}
    (h : SameAnswer r x y) : r x.2 y.2 := by
  cases h with
  | failed hs => exact hs
  | answered a hs => exact hs

theorem SameAnswer.toOption_eq {α σ : Type} {r : σ → σ → Prop} {x y : Except FilterError α × σ}
    (h : SameAnswer r x y) : x.1.toOption = y.1.toOption := by
  cases h with
  | failed hs => rfl
  | answered a hs => rfl

/-- An answer worked on, and a state put into a larger one. -/
theorem SameAnswer.map {α β σ τ : Type} {r : σ → σ → Prop} {q : τ → τ → Prop}
    {x y : Except FilterError α × σ} (h : SameAnswer r x y) (f : α → β) {g g' : σ → τ}
    (hg : ∀ s s', r s s' → q (g s) (g' s')) :
    SameAnswer q (x.1.map f, g x.2) (y.1.map f, g' y.2) := by
  cases h with
  | failed hs => exact .failed (hg _ _ hs)
  | answered a hs => exact .answered (f a) (hg _ _ hs)

theorem SameAnswer.rest {α σ τ : Type} {r : σ → σ → Prop} {q : τ → τ → Prop}
    {x y : Except FilterError α × σ} (h : SameAnswer r x y) {g g' : σ → τ}
    (hg : ∀ s s', r s s' → q (g s) (g' s')) : SameAnswer q (x.1, g x.2) (y.1, g' y.2) := by
  cases h with
  | failed hs => exact .failed (hg _ _ hs)
  | answered a hs => exact .answered a (hg _ _ hs)

theorem column_same {a b : ColumnTest} (cell : Cell) (state : RowState) (h : SameTest a b) :
    SameAnswer SameEvaluator (onValue cell (.column a state)) (onValue cell (.column b state)) := by
  have ha := ColumnTest.onValue_alike h state cell
  rw [onValue, onValue]
  generalize a.onValue state cell = x, b.onValue state cell = y at ha
  cases x with
  | error fault => cases y with
    | error fault' => exact .failed (.column state h)
    | ok answer => exact ha.elim
  | ok answer => cases y with
    | error fault' => exact ha.elim
    | ok answer' =>
      cases ha
      exact .answered _ (.column _ h)

mutual

/-- One cell gets the same answer from both filters and keeps them the same. -/
theorem onValue_same (cell : Cell) : ∀ {e e' : Evaluator}, SameEvaluator e e' →
    SameAnswer SameEvaluator (onValue cell e) (onValue cell e')
  | _, _, .column state h => column_same cell state h
  | .group .and _, _, .group h => by
    rw [onValue, onValue]
    exact (onValueAll_same cell .include h).rest fun _ _ => .group
  | .group .or es, .group _ es', .group h => by
    -- both ask their children, or neither does
    rw [onValue, onValue, anySatisfied_eq h]
    by_cases hs : anySatisfied es' = true
    · rw [if_pos hs, if_pos hs]
      exact .answered _ (.group h)
    · rw [if_neg hs, if_neg hs]
      exact (onValueEach_same cell h).map joinAny fun _ _ => .group

theorem onValueAll_same (cell : Cell) (code : ReturnCode) : ∀ {es es' : List Evaluator},
    SameEvaluators es es' →
      SameAnswer SameEvaluators (onValueAll cell code es) (onValueAll cell code es')
  | _, _, .nil => .answered _ .nil
  | e :: _, e' :: _, .cons h hs => by
    have ha := onValue_same cell h
    rw [onValueAll, onValueAll]
    generalize onValue cell e = x, onValue cell e' = y at ha
    cases ha with
    | failed hnext => exact .failed (.cons hnext hs)
    | answered answer hnext =>
      -- the children behind are asked unless the answer is to skip the row
      cases answer with
      | skipRow => exact .answered _ (.cons hnext hs)
      | includeAndStopRow => exact (onValueAll_same cell _ hs).rest fun _ _ => .cons hnext
      | «include» => exact (onValueAll_same cell _ hs).rest fun _ _ => .cons hnext

theorem onValueEach_same (cell : Cell) : ∀ {es es' : List Evaluator}, SameEvaluators es es' →
    SameAnswer SameEvaluators (onValueEach cell es) (onValueEach cell es')
  | _, _, .nil => .answered _ .nil
  | e :: _, e' :: _, .cons h hs => by
    have ha := onValue_same cell h
    rw [onValueEach, onValueEach]
    generalize onValue cell e = x, onValue cell e' = y at ha
    cases ha with
    | failed hnext => exact .failed (.cons hnext hs)
    | answered answer hnext =>
      exact (onValueEach_same cell hs).map (answer :: ·) fun _ _ => .cons hnext

end

/-! ## Rows -/

theorem calls_same {e e' : Evaluator} (h : SameEvaluator e e') (history : List Call) :
    SameEvaluator (history.foldl call e) (history.foldl call e') := by
  induction history generalizing e e' with
  | nil => exact h
  | cons first later ih =>
    rw [List.foldl_cons, List.foldl_cons]
    refine ih ?_
    cases first with
    | reset => exact reset_same h
    | value cell => exact (onValue_same cell h).states

/-- What a filter says about a row: a code for each cell, none where it fails, and at the end the
verdict. -/
def report : List Cell → Evaluator → List (Option ReturnCode) × Bool
  | [], e => ([], e.verdict)
  | cell :: rest, e =>
    let later := report rest (onValue cell e).2
    ((onValue cell e).1.toOption :: later.1, later.2)

/-- Filters in the same state say the same about a row. -/
theorem report_eq {e e' : Evaluator} (h : SameEvaluator e e') (row : List Cell) :
    report row e = report row e' := by
  induction row generalizing e e' with
  | nil => rw [report, report, verdict_eq h]
  | cons cell rest ih =>
    have ha := onValue_same cell h
    rw [report, report, ih ha.states, ha.toOption_eq]

end Evaluator

end CellFilter
