import CellFilter.Filter.Basic
import CellFilter.Predicate.Evaluator

/-!
# Evaluating filters over a row

A group hands each cell to its filters in order and joins their codes.  A conjunction stops at the
first filter that skips the row.  A disjunction asks nobody once one of its filters is satisfied,
and skips the row only if all of its filters do.
-/

namespace CellFilter

/-- A filter in the middle of a row. -/
inductive Evaluator where
  | column (test : ColumnTest) (state : RowState)
  | group (operator : Operator) (children : List Evaluator)

namespace Filter

mutual

/-- Makes a filter ready for rows. -/
def evaluator : Filter → WithCache Evaluator
  | .column p => return .column (← p.test) .notFound
  | .group op filters _ => return .group op (← evaluators filters)

/-- Makes filters ready for rows, from the first to the last. -/
def evaluators : List Filter → WithCache (List Evaluator)
  | [] => return []
  | f :: rest => do
    let first ← f.evaluator
    return first :: (← evaluators rest)

end

end Filter

namespace Evaluator

mutual

/-- Whether later cells of the row can no longer change a passing verdict. -/
def isSatisfied : Evaluator → Bool
  | .column _ state => state == .matched
  | .group .and children => !children.isEmpty && allSatisfied children
  | .group .or children => anySatisfied children

/-- Whether all are satisfied. -/
def allSatisfied : List Evaluator → Bool
  | [] => true
  | e :: rest => e.isSatisfied && allSatisfied rest

/-- Whether some are satisfied. -/
def anySatisfied : List Evaluator → Bool
  | [] => false
  | e :: rest => e.isSatisfied || anySatisfied rest

end

mutual

/-- Whether the row passes. -/
def verdict : Evaluator → Bool
  | .column test state => test.verdict state
  | .group .and children => allPass children
  | .group .or children => anyPass children

/-- Whether the row passes all. -/
def allPass : List Evaluator → Bool
  | [] => true
  | e :: rest => e.verdict && allPass rest

/-- Whether the row passes some. -/
def anyPass : List Evaluator → Bool
  | [] => false
  | e :: rest => e.verdict || anyPass rest

end

mutual

/-- Makes ready for the next row. -/
def reset : Evaluator → Evaluator
  | .column test _ => .column test .notFound
  | .group op children => .group op (resetAll children)

/-- Makes all ready for the next row. -/
def resetAll : List Evaluator → List Evaluator
  | [] => []
  | e :: rest => e.reset :: resetAll rest

end

/-- The code of a disjunction, given the codes of its filters. -/
def joinAny (codes : List ReturnCode) : ReturnCode :=
  if codes.contains .include then .include
  else if codes.contains .includeAndStopRow then .includeAndStopRow
  else .skipRow

mutual

/-- Takes a cell of the row.  After an error, the filters that were asked before keep their new
states. -/
def onValue (cell : Cell) : Evaluator → Except FilterError ReturnCode × Evaluator
  | .column test state =>
    match test.onValue state cell with
    | .ok (code, next) => (.ok code, .column test next)
    | .error e => (.error e, .column test state)
  | .group .and children =>
    let (code, children) := onValueAll cell .include children
    (code, .group .and children)
  | .group .or children =>
    if anySatisfied children then (.ok .include, .group .or children)
    else
      let (codes, children) := onValueEach cell children
      (codes.map joinAny, .group .or children)

/-- Asks filters until one skips the row; `code` is the code so far. -/
def onValueAll (cell : Cell) (code : ReturnCode) :
    List Evaluator → Except FilterError ReturnCode × List Evaluator
  | [] => (.ok code, [])
  | e :: rest =>
    match onValue cell e with
    | (.error fault, e) => (.error fault, e :: rest)
    | (.ok .skipRow, e) => (.ok .skipRow, e :: rest)
    | (.ok .includeAndStopRow, e) =>
      let (code, rest) := onValueAll cell .includeAndStopRow rest
      (code, e :: rest)
    | (.ok .include, e) =>
      let (code, rest) := onValueAll cell code rest
      (code, e :: rest)

/-- Asks every filter for its code. -/
def onValueEach (cell : Cell) :
    List Evaluator → Except FilterError (List ReturnCode) × List Evaluator
  | [] => (.ok [], [])
  | e :: rest =>
    match onValue cell e with
    | (.error fault, e) => (.error fault, e :: rest)
    | (.ok code, e) =>
      let (codes, rest) := onValueEach cell rest
      (codes.map (code :: ·), e :: rest)

end

end Evaluator

end CellFilter
