import CellFilter.Proofs.Filter.Verdict
import CellFilter.Proofs.Message.Faults
import CellFilter.Proofs.Path.Names

/-!
# What a cell may fail with

Whether the operand of a predicate suits its mode is found out when the predicate is made ready.  The
cells of a row are judged afterwards by the mode and by what was kept of the operand, and no
combination of the two that is left can be at fault.  So a cell fails for its bytes, for what its path
leads to, or for the type of what it finds there, and a test that fails at a cell is where it was.

* `CellFault`: the errors that a cell may come to.
* `ColumnPredicate.Suited`: whether the operand of a predicate is one for its mode.
* `ColumnPredicate.keptOperand`, `ColumnPredicate.matchesKept`: mode and operand looked at twice, as
  the predicate is made ready and at every value.
* `ColumnTest.accepts_fails`: a test that is ready fails for its values.
* `Evaluator.onValue_fails`: so does a tree of such tests.
* `Evaluator.cells_fail_only`: **configurations fail when they are made ready**, cells for what they
  hold.
-/

namespace CellFilter

open Outcome WithCache

/-- The errors that a cell may come to. -/
inductive CellFault : FilterError → Prop
  /-- The value holds no fields. -/
  | undecodable (fault : WireFault) : CellFault (.undecodable fault)
  /-- The value is no message of its schema. -/
  | malformed (message : String) (fault : MessageFault) :
      CellFault (.malformedMessage message fault)
  /-- The path leads to a message. -/
  | endsOnMessage (path field : String) : CellFault (.pathEndsOnMessage path field)
  /-- The path leads to many values. -/
  | repeated (field : String) : CellFault (.repeatedField field)
  /-- The path leads to a value of another type. -/
  | mismatch (operand scalar : ScalarType) : CellFault (.typeMismatch operand scalar)

theorem ReadFault.cellFault {pool : SchemaPool} {e : FilterError} (h : ReadFault pool e) :
    CellFault e := by
  cases h with
  | undecodable fault => exact .undecodable fault
  | malformed message _ => exact .malformed message _
  | dangling message _ => exact .malformed message _

namespace Message

theorem decode_cellFault (s : Schema) (bytes : Bytes) : FailsOnly CellFault (decode s bytes) :=
  (decode_fails s bytes).mono fun _ => ReadFault.cellFault

theorem matchBy_ok {op : MatchOp} (h : op ≠ .scalar) (operand value : Message) :
    FailsOnly CellFault (matchBy op operand value) := by
  rw [matchBy, if_neg (by simpa using h)]
  exact .ok _

end Message

namespace Path

theorem extractChars_fails (p : List Char) (m : Message) :
    FailsOnly CellFault (extractChars p m) := by
  induction hlen : p.length using Nat.strong_induction_on generalizing p m with
  | _ len ih =>
    cases hlook : look m (String.ofList (head p)) with
    | message f inner =>
      rw [extractChars_message hlook]
      split_ifs with hblank
      · exact .error (.endsOnMessage _ _)
      · exact ih _ (hlen ▸ rest_length hblank) _ _ rfl
    | nowhere =>
      rw [extractChars_of_not_message (by simp [hlook]), hlook]
      exact .ok _
    | value owner f a =>
      rw [extractChars_of_not_message (by simp [hlook]), hlook]
      exact .ok _
    | list f =>
      rw [extractChars_of_not_message (by simp [hlook]), hlook]
      exact .error (.repeated _)

/-- With an operand or a comparator, a comparison fails for what the path leads to. -/
theorem compare_fails (path : String) {operand? : Option Scalar} {comparator? : Option Comparator}
    (h : operand? ≠ none ∨ comparator? ≠ none) (op : CompareOp) (m : Message) :
    FailsOnly CellFault (compare path operand? op m comparator?) := by
  refine (extractChars_fails path.toList m).bind fun found _ => ?_
  cases found with
  | none => exact .ok _
  | some value =>
    dsimp only
    cases comparator? with
    | some comparator => exact .ok _
    | none =>
      cases operand? with
      | none => exact absurd h (by simp)
      | some operand =>
        dsimp only
        cases value.compareTo? operand with
        | some r => exact .ok _
        | none => exact .error (.mismatch _ _)

end Path

/-! ## Making ready -/

/-- The operand message of what a test looks for. -/
def Wanted.kept? : Wanted → Option Message
  | .field _ => none
  | .message operand => some operand

namespace ColumnPredicate

variable {p : ColumnPredicate} {schema : Schema} {cache left : SchemaCache}

/-- The operand of a predicate is one for its mode: a field is compared with a scalar or by a
comparator, and anything else is matched with a message. -/
inductive Suited (p : ColumnPredicate) : Prop
  | scalar {value : Scalar} : p.matchOp = .scalar → p.operand? = some (.scalar value) → Suited p
  | comparator {comparator : Comparator} : p.matchOp = .scalar → p.operand? = none →
      p.comparator? = some comparator → Suited p
  | message {encoded : Bytes} : p.matchOp ≠ .scalar → p.operand? = some (.message encoded) → Suited p

/-- What is kept of the operand when a predicate is made ready: a message, if one is to be matched. -/
def keptOperand (p : ColumnPredicate) (schema : Schema) : Except FilterError (Option Message) :=
  match p.matchOp, p.operand? with
  | .scalar, some (.message _) => .error (.invalidOperand .messageForScalarMatch)
  | .scalar, none =>
    if p.comparator?.isNone then .error (.invalidOperand (.nothingToCompareWith p.path))
    else .ok none
  | .scalar, _ => .ok none
  | _, some (.message encoded) => (Message.decode schema encoded).map some
  | op, _ => .error (.invalidOperand (.messageRequired op.name))

/-- The scalar that a field is compared with, if the operand is one. -/
def scalarOperand? (p : ColumnPredicate) : Option Scalar :=
  match p.operand? with
  | some (.scalar operand) => some operand
  | _ => none

/-- How a value is judged by the mode, the operand and the message that was kept, with a complaint for
each combination in which there is nothing to judge by. -/
def matchesKept (p : ColumnPredicate) (schema : Schema) (kept? : Option Message) (value : Bytes) :
    Except FilterError Bool := do
  let message ← Message.decode schema value
  match kept?, p.matchOp with
  | _, .scalar => Path.compare p.path p.scalarOperand? p.compareOp message p.comparator?
  | some operand, op => Message.matchBy op operand message
  | none, op => throw (.invalidOperand (.messageRequired op.name))

/-- Looking for something and keeping a message of it succeed and fail together. -/
theorem keptOperand_eq (p : ColumnPredicate) (schema : Schema) :
    p.keptOperand schema = (p.wantedIn schema).map Wanted.kept? := by
  have hmessage : ∀ encoded, (Message.decode schema encoded).map some =
      ((Message.decode schema encoded).map Wanted.message).map Wanted.kept? := by
    intro encoded
    cases Message.decode schema encoded <;> rfl
  unfold keptOperand wantedIn
  cases p.matchOp <;> rcases p.operand? with _ | _ | encoded <;>
    first | rfl | exact hmessage encoded | (dsimp only; split_ifs <;> rfl)

theorem wantedIn_of_suited (h : p.Suited) (schema : Schema) :
    FailsOnly (ReadFault schema.pool) (p.wantedIn schema) := by
  unfold wantedIn
  cases h with
  | scalar hop hoperand =>
    rw [hop, hoperand]
    exact .ok _
  | comparator hop hoperand hcomparator =>
    rw [hop, hoperand, hcomparator]
    exact .ok _
  | @message encoded hop hoperand =>
    have hdecode := (Message.decode_fails schema encoded).map Wanted.message
    rw [hoperand]
    cases hmode : p.matchOp <;> first | exact absurd hmode hop | exact hdecode

/-- **An operand that does not suit** is refused, whatever the schema. -/
theorem wantedIn_of_not_suited (h : ¬ p.Suited) (schema : Schema) :
    ∃ fault, p.wantedIn schema = .error (.invalidOperand fault) := by
  unfold wantedIn
  cases hoperand : p.operand? with
  | none =>
    cases hop : p.matchOp with
    | scalar =>
      cases hcomparator : p.comparator? with
      | none => exact ⟨_, rfl⟩
      | some c => exact absurd (.comparator hop hoperand hcomparator) h
    | _ => exact ⟨_, rfl⟩
  | some operand =>
    cases operand with
    | scalar value =>
      cases hop : p.matchOp with
      | scalar => exact absurd (.scalar hop hoperand) h
      | _ => exact ⟨_, rfl⟩
    | message encoded =>
      cases hop : p.matchOp with
      | scalar => exact ⟨_, rfl⟩
      | _ => exact absurd (.message (by rw [hop]; decide) hoperand) h

theorem suited_of_wantedIn {wanted : Wanted} (h : p.wantedIn schema = .ok wanted) : p.Suited := by
  by_contra hnot
  obtain ⟨fault, hfault⟩ := wantedIn_of_not_suited hnot schema
  rw [hfault] at h
  cases h

/-- **What a predicate wants**: a field to compare, with a scalar or a comparator to compare it with, or
a message to match. -/
theorem wantedIn_eq_ok {wanted : Wanted} (h : p.wantedIn schema = .ok wanted) :
    (p.matchOp = .scalar ∧ wanted = .field p.scalarOperand? ∧
      (p.scalarOperand? ≠ none ∨ p.comparator? ≠ none)) ∨
    (p.matchOp ≠ .scalar ∧ ∃ operand, wanted = .message operand) := by
  have hsuited := suited_of_wantedIn h
  unfold wantedIn at h
  unfold scalarOperand?
  cases hsuited with
  | scalar hop hoperand =>
    rw [hop, hoperand] at h
    cases h
    exact .inl ⟨hop, by rw [hoperand], .inl (by rw [hoperand]; simp)⟩
  | comparator hop hoperand hcomparator =>
    rw [hop, hoperand, hcomparator] at h
    cases h
    exact .inl ⟨hop, by rw [hoperand], .inr (by simp [hcomparator])⟩
  | @message encoded hop hoperand =>
    have hdecoded : (Message.decode schema encoded).map Wanted.message = .ok wanted := by
      rw [hoperand] at h
      cases hmode : p.matchOp <;> rw [hmode] at h <;> first | exact absurd hmode hop | exact h
    obtain ⟨operand, -, rfl⟩ := map_eq_ok.mp hdecoded
    exact .inr ⟨hop, operand, rfl⟩

/-- Once its schema is found, a predicate is made ready by looking at its operand. -/
theorem runOn_test {handle : SchemaHandle}
    (h : runOn (SchemaCache.resolve p.key p.payload?) cache = (.ok handle, left)) :
    runOn p.test cache =
      ((p.wantedIn handle.schema).map fun wanted => ⟨p, handle.schema, wanted⟩, left) := by
  rw [test, runOn_bind, h]
  dsimp only
  cases p.wantedIn handle.schema <;> rfl

end ColumnPredicate

namespace ColumnTest

variable {test : ColumnTest}

/-- A test looks for what its predicate wants of its schema. -/
def Ready (test : ColumnTest) : Prop := test.predicate.wantedIn test.schema = .ok test.wanted

theorem ready_of_test {p : ColumnPredicate} {cache left : SchemaCache}
    (h : runOn p.test cache = (.ok test, left)) : test.Ready := by
  rw [ColumnPredicate.test, runOn_bind_eq_ok] at h
  obtain ⟨handle, found, hfound, h⟩ := h
  rw [runOn_bind_eq_ok] at h
  obtain ⟨wanted, left', hwanted, h⟩ := h
  cases h
  cases hw : p.wantedIn handle.schema with
  | error e => rw [hw] at hwanted; cases hwanted
  | ok w =>
    rw [hw] at hwanted
    cases hwanted
    exact hw

/-- A test that is ready judges a value as its predicate does with what was kept. -/
theorem accepts_eq_matchesKept (h : test.Ready) (value : Bytes) :
    test.accepts value = test.predicate.matchesKept test.schema test.wanted.kept? value := by
  unfold accepts ColumnPredicate.matchesKept
  cases Message.decode test.schema value with
  | error e => rfl
  | ok message =>
    rw [ok_bind, ok_bind]
    obtain ⟨hop, hwanted, -⟩ | ⟨hop, operand, hwanted⟩ := ColumnPredicate.wantedIn_eq_ok h
    · simp only [hwanted, hop]
    · cases hmode : test.predicate.matchOp with
      | scalar => exact absurd hmode hop
      | _ => simp only [hwanted, Wanted.kept?]

/-- **A test that is ready** fails for the value that it judges. -/
theorem accepts_fails (h : test.Ready) (value : Bytes) : FailsOnly CellFault (test.accepts value) := by
  refine (Message.decode_cellFault test.schema value).bind fun message _ => ?_
  obtain ⟨-, hwanted, hgiven⟩ | ⟨hop, operand, hwanted⟩ := ColumnPredicate.wantedIn_eq_ok h <;>
    rw [hwanted]
  · exact Path.compare_fails _ hgiven _ _
  · exact Message.matchBy_ok hop _ _

theorem onValue_fails (h : test.Ready) (state : RowState) (cell : Cell) :
    FailsOnly CellFault (test.onValue state cell) := by
  unfold onValue
  split_ifs
  · exact .ok _
  · exact .ok _
  · refine (accepts_fails h cell.value).bind fun accepted _ => ?_
    cases accepted <;> exact .ok _

end ColumnTest

/-! ## Trees -/

namespace Filter

mutual

/-- The tests of a filter that was made ready are ready. -/
theorem ready_of_evaluator : ∀ {f : Filter} {cache left : SchemaCache} {e : Evaluator},
    runOn f.evaluator cache = (.ok e, left) → ∀ test ∈ e.tests, test.Ready
  | .column p, cache, left, e, h => by
    rw [evaluator, runOn_bind_eq_ok] at h
    obtain ⟨test, left', ht, h⟩ := h
    cases h
    intro other hother
    obtain rfl := List.mem_singleton.mp hother
    exact ColumnTest.ready_of_test ht
  | .group op filters bundle, cache, left, e, h => by
    rw [evaluator, runOn_bind_eq_ok] at h
    obtain ⟨children, left', hc, h⟩ := h
    cases h
    exact ready_of_evaluators hc

theorem ready_of_evaluators : ∀ {fs : List Filter} {cache left : SchemaCache} {es : List Evaluator},
    runOn (evaluators fs) cache = (.ok es, left) →
      ∀ test ∈ Evaluator.testsOf es, test.Ready
  | [], cache, left, es, h => by
    rw [evaluators] at h
    cases h
    intro test htest
    cases htest
  | f :: rest, cache, left, es, h => by
    rw [evaluators, runOn_bind_eq_ok] at h
    obtain ⟨first, left', hf, h⟩ := h
    rw [runOn_bind_eq_ok] at h
    obtain ⟨others, left'', ho, h⟩ := h
    cases h
    intro test htest
    rcases List.mem_append.mp htest with htest | htest
    · exact ready_of_evaluator hf test htest
    · exact ready_of_evaluators ho test htest

end

end Filter

namespace Evaluator

mutual

/-- **A tree of tests that are ready** fails at a cell for what the cell holds. -/
theorem onValue_fails (cell : Cell) : ∀ {e : Evaluator}, (∀ test ∈ e.tests, test.Ready) →
    FailsOnly CellFault (onValue cell e).1
  | .column test state, h => by
    have htest := ColumnTest.onValue_fails (h test (List.mem_singleton_self test)) state cell
    rw [onValue]
    cases hv : test.onValue state cell with
    | error fault => exact .error (htest fault hv)
    | ok answer => exact .ok _
  | .group .and children, h => by
    rw [onValue]
    exact onValueAll_fails cell .include h
  | .group .or children, h => by
    rw [onValue]
    split_ifs
    · exact .ok _
    · exact (onValueEach_fails cell h).map joinAny

theorem onValueAll_fails (cell : Cell) (code : ReturnCode) : ∀ {es : List Evaluator},
    (∀ test ∈ testsOf es, test.Ready) → FailsOnly CellFault (onValueAll cell code es).1
  | [], _ => .ok _
  | e :: rest, h => by
    rw [testsOf, List.forall_mem_append] at h
    have hfirst := onValue_fails cell h.1
    have hrest := fun code => onValueAll_fails cell code h.2
    rw [onValueAll]
    cases hv : onValue cell e with
    | mk answer next =>
      rw [hv] at hfirst
      rcases answer with fault | (_ | _ | _)
      · exact .error (hfirst fault rfl)
      · exact hrest _
      · exact hrest _
      · exact .ok _

theorem onValueEach_fails (cell : Cell) : ∀ {es : List Evaluator},
    (∀ test ∈ testsOf es, test.Ready) → FailsOnly CellFault (onValueEach cell es).1
  | [], _ => .ok _
  | e :: rest, h => by
    rw [testsOf, List.forall_mem_append] at h
    have hfirst := onValue_fails cell h.1
    have hrest := onValueEach_fails cell h.2
    rw [onValueEach]
    cases hv : onValue cell e with
    | mk answer next =>
      rw [hv] at hfirst
      cases answer with
      | error fault => exact .error (hfirst fault rfl)
      | ok code => exact hrest.map _

end

/-- Whatever calls were made, the tests are the same. -/
theorem tests_calls (e : Evaluator) (history : List Call) : (history.foldl call e).tests = e.tests := by
  rw [← tests_reset, calls_reset, tests_reset]

/-- A single test that fails at a cell is where it was, whatever calls were made before. -/
theorem onValue_column_error {test : ColumnTest} {state : RowState} {cell : Cell} {next : Evaluator}
    {fault : FilterError} (h : onValue cell (.column test state) = (.error fault, next)) :
    next = .column test state := by
  rw [onValue] at h
  cases hv : test.onValue state cell with
  | error e => rw [hv] at h; cases h; rfl
  | ok answer => rw [hv] at h; cases h

/-- Calls leave a single test a single test. -/
theorem exists_calls_column (test : ColumnTest) (state : RowState) (history : List Call) :
    ∃ later, history.foldl call (.column test state) = .column test later := by
  induction history generalizing state with
  | nil => exact ⟨state, rfl⟩
  | cons first rest ih =>
    rw [List.foldl_cons]
    cases first with
    | reset => exact ih .notFound
    | value cell =>
      rw [call, onValue]
      cases test.onValue state cell with
      | error fault => exact ih state
      | ok answer => exact ih answer.2

/-- **Configurations fail when they are made ready.**  Once its schema is found, a predicate whose
operand does not suit its mode is refused, and any other one fails for the bytes of its operand only.
A test that was made ready judges values by its mode and what was kept of its operand; at whatever
cells it is called and reset, it fails for the cell alone and is then where it was.  Nor does a filter
of any shape fail for anything else. -/
theorem cells_fail_only :
    (∀ (p : ColumnPredicate) (cache left : SchemaCache) (handle : SchemaHandle),
      runOn (SchemaCache.resolve p.key p.payload?) cache = (.ok handle, left) →
        (¬ p.Suited → ∃ fault, runOn p.test cache = (.error (.invalidOperand fault), left)) ∧
        (p.Suited → FailsOnly (ReadFault handle.schema.pool) (runOn p.test cache).1)) ∧
    (∀ (p : ColumnPredicate) (cache left : SchemaCache) (test : ColumnTest),
      runOn p.test cache = (.ok test, left) →
        (p.keptOperand test.schema = .ok test.wanted.kept? ∧
          ∀ value, test.accepts value = p.matchesKept test.schema test.wanted.kept? value) ∧
        ∀ (history : List Call) (cell : Cell) (fault : FilterError) (next : Evaluator),
          onValue cell (history.foldl call (.column test .notFound)) = (.error fault, next) →
            CellFault fault ∧ next = history.foldl call (.column test .notFound)) ∧
    ∀ (f : Filter) (cache left : SchemaCache) (e : Evaluator),
      runOn f.evaluator cache = (.ok e, left) →
        ∀ (history : List Call) (cell : Cell) (fault : FilterError) (next : Evaluator),
          onValue cell (history.foldl call e) = (.error fault, next) → CellFault fault := by
  have hcell : ∀ (e : Evaluator), (∀ test ∈ e.tests, test.Ready) → ∀ (history : List Call)
      (cell : Cell) (fault : FilterError) (next : Evaluator),
        onValue cell (history.foldl call e) = (.error fault, next) → CellFault fault := by
    intro e hready history cell fault next h
    refine onValue_fails cell (e := history.foldl call e) ?_ fault (by rw [h])
    rw [tests_calls]
    exact hready
  refine ⟨fun p cache left handle hfound => ?_, fun p cache left test hmade => ?_,
    fun f cache left e hmade => hcell e (Filter.ready_of_evaluator hmade)⟩
  · rw [ColumnPredicate.runOn_test hfound]
    refine ⟨fun hnot => ?_, fun hsuited => ?_⟩
    · obtain ⟨fault, hfault⟩ := ColumnPredicate.wantedIn_of_not_suited hnot handle.schema
      exact ⟨fault, by rw [hfault]; rfl⟩
    · exact (ColumnPredicate.wantedIn_of_suited hsuited handle.schema).map _
  · have hready := ColumnTest.ready_of_test hmade
    obtain rfl := ColumnPredicate.test_predicate hmade
    refine ⟨⟨?_, ColumnTest.accepts_eq_matchesKept hready⟩, fun history cell fault next h => ?_⟩
    · rw [ColumnPredicate.keptOperand_eq, hready]
      rfl
    · have htests : ∀ t ∈ (Evaluator.column test .notFound).tests, t.Ready := by
        intro t ht
        obtain rfl := List.mem_singleton.mp ht
        exact hready
      refine ⟨hcell _ htests history cell fault next h, ?_⟩
      obtain ⟨state, hstate⟩ := exists_calls_column test .notFound history
      rw [hstate] at h ⊢
      exact onValue_column_error h

/-- Whether the number is one, asked of a number of 64 bits. -/
def flagAsked : ColumnPredicate := flagTarget.fieldCompare "value" .equal (.long 1)

/-- The predicate made ready. -/
def flagAskedTest : ColumnTest := ⟨flagAsked, flagSchema, .field (some (.long 1))⟩

/-- The same mode with an operand that does not suit it. -/
def flagMisfit : ColumnPredicate := { flagAsked with operand? := some (.message [8, 1]) }

/-- An operand that does not suit is refused at once; one of another type than the field is found out at
a cell, by a test alone, called and reset before, and by a tree. -/
theorem cells_fail_only_flag : ¬ flagMisfit.Suited ∧
    (∃ fault, runOn flagMisfit.test flagCache = (.error (.invalidOperand fault), flagCache)) ∧
    runOn flagAsked.test flagCache = (.ok flagAskedTest, flagCache) ∧
    onValue ⟨[102], [113], [8, 1]⟩ ([.value ⟨[102], [113], []⟩, .reset].foldl call
      (.column flagAskedTest .notFound)) =
        (.error (.typeMismatch .long .int), .column flagAskedTest .notFound) ∧
    CellFault (.typeMismatch .long .int) ∧
    (∃ e next, runOn (Filter.group .or [.group .and [] .empty, .column flagAsked] .empty).evaluator
        flagCache = (.ok e, flagCache) ∧
      onValue ⟨[102], [113], [8]⟩ e = (.error (.undecodable .invalidVarint), next) ∧
      CellFault (.undecodable .invalidVarint)) := by
  obtain ⟨hbuilt, hcells, htrees⟩ := cells_fail_only
  have hmisfit : ¬ flagMisfit.Suited := by
    rintro (⟨-, h⟩ | ⟨-, h, -⟩ | ⟨h, -⟩)
    · cases h
    · cases h
    · exact h rfl
  have hfound : runOn (SchemaCache.resolve flagMisfit.key flagMisfit.payload?) flagCache =
    (.ok ⟨0, flagSchema⟩, flagCache) := rfl
  have hready : runOn flagAsked.test flagCache = (.ok flagAskedTest, flagCache) := rfl
  have hmismatch : onValue ⟨[102], [113], [8, 1]⟩ ([.value ⟨[102], [113], []⟩, .reset].foldl call
    (.column flagAskedTest .notFound)) =
      (.error (.typeMismatch .long .int), .column flagAskedTest .notFound) := by
    with_unfolding_all rfl
  have htree : runOn (Filter.group .or [.group .and [] .empty, .column flagAsked] .empty).evaluator
    flagCache = (.ok (.group .or [.group .and [], .column flagAskedTest .notFound]), flagCache) := rfl
  have hbytes : onValue ⟨[102], [113], [8]⟩
    (.group .or [.group .and [], .column flagAskedTest .notFound]) =
      (.error (.undecodable .invalidVarint),
        .group .or [.group .and [], .column flagAskedTest .notFound]) := by rfl
  exact ⟨hmisfit, (hbuilt _ _ _ _ hfound).1 hmisfit, hready, hmismatch,
    ((hcells _ _ _ _ hready).2 _ _ _ _ hmismatch).1, _, _, htree, hbytes,
    htrees _ _ _ _ htree [] _ _ _ hbytes⟩

end Evaluator

end CellFilter
