import CellFilter.Proofs.Predicate.RoundTrip

/-!
# Predicates travel both ways

A predicate that is written is read back as it was, whatever follows its bytes.  The other way
round, a predicate that was read is written in a form of its own: lengths are as short as they can
be, the operand has one member only, there is no empty payload, and the comparator has the kind and
the state of the one that was built.  Reading this form yields the same predicate again.

* `ColumnPredicate.reads_encode`: what is written is read, if the comparator can be built again.
* `ColumnPredicate.of_decode`: what was read has no empty payload, and its comparator was built.
* `ColumnPredicate.travels_both_ways`: **both ways**, for a registry of any comparators.
-/

namespace CellFilter.ColumnPredicate

open Outcome

variable {comparators : ComparatorRegistry} {p : ColumnPredicate}

/-- A predicate that has nothing but carried payloads. -/
def Filled (p : ColumnPredicate) : Prop := ∀ b ∈ p.payload?, b ≠ []

theorem Filled.filter_eq (h : p.Filled) : (p.payload?.filter fun b => !b.isEmpty) = p.payload? := by
  unfold Filled at h
  cases hp : p.payload? with
  | none => rfl
  | some b => simpa [Option.filter] using h b hp

/-- **What is written is read**, if the comparator can be built again. -/
theorem reads_encode (hfilled : p.Filled) (hrebuild : p.Rebuildable comparators)
    (hlen : p.encode.length < UInt64.size) :
    ∃ q, Reads (read comparators) p.encode q ∧ p.Same q := by
  obtain ⟨c?, hc, hsame⟩ := hrebuild.exists_comparator
  have hread := gives_encode comparators hlen
  rw [rebuild, hc, hfilled.filter_eq, map_ok] at hread
  exact ⟨{ p with comparator? := c? }, hread, rfl, hsame⟩

/-! ### What was read -/

theorem ensures_readFront : Ensures readFront Filled := by
  unfold readFront
  refine .last fun family => .last fun qualifier => .last fun ordinal => .last fun compareOp => ?_
  refine .last fun number => .last fun matchOp => .last fun filterIfMissing => ?_
  refine .last fun latestVersionOnly => .last fun path => .last fun scalar => ?_
  refine .last fun message => .last fun operand? => .last fun name => .last fun hash => ?_
  refine .last fun payload => .pure ?_
  intro b hb hempty
  simp [Option.filter_eq_some_iff, hempty] at hb

/-- A comparator that was read was built. -/
theorem ensures_readComparator : Ensures (readComparator comparators) fun c? =>
    ∀ c ∈ c?, ∃ kind state, comparators.build kind state = .ok c := by
  refine .last fun b => ?_
  split_ifs
  · refine .last fun kind => .last fun state => ?_
    refine Ensures.bind (Q := fun c => comparators.build kind state = .ok c) ?_ fun c hc => .pure ?_
    · intro input c rest h
      cases hbuild : comparators.build kind state with
      | error e => rw [hbuild] at h; cases h
      | ok d => rw [hbuild] at h; cases h; rfl
    · rintro d ⟨⟩
      exact ⟨kind, state, hc⟩
  · exact .pure fun c hc => by cases hc

theorem of_decode {bytes : Bytes} (h : decode comparators bytes = .ok p) :
    p.Filled ∧ ∀ c ∈ p.comparator?, ∃ kind state, comparators.build kind state = .ok c := by
  refine Ensures.whole (P := fun p => p.Filled ∧
    ∀ c ∈ p.comparator?, ∃ kind state, comparators.build kind state = .ok c) ?_ h
  rw [read_eq]
  refine ensures_readFront.bind fun front hfilled => ?_
  exact ensures_readComparator.bind fun c? hc => .pure ⟨hfilled, hc⟩

/-- What a stable registry was used to read it can build again. -/
theorem rebuildable_of_decode (hstable : comparators.Stable) {bytes : Bytes}
    (h : decode comparators bytes = .ok p) : p.Rebuildable comparators := by
  intro c hc
  obtain ⟨kind, state, hbuild⟩ := (of_decode h).2 c hc
  exact hstable kind state c hbuild

/-- **A predicate travels both ways**, whatever comparators a registry has constructors for.  First,
a predicate without an empty payload is read as it was from its bytes, whatever follows them, and
what follows is left.  Second, if whatever is built can be built again, as it can if only the
built-in kinds are known, a predicate that was read is the same when it is read from the bytes in
which it is written.  The length of these bytes fits into 64 bits. -/
theorem travels_both_ways :
    (∀ comparators : ComparatorRegistry,
      (∀ (p : ColumnPredicate) (more : Bytes), p.Filled → p.Rebuildable comparators →
        p.encode.length < UInt64.size →
        ∃ q, read comparators (p.encode ++ more) = .ok (q, more) ∧ p.Same q) ∧
      (comparators.Stable → ∀ (bytes : Bytes) (p : ColumnPredicate),
        decode comparators bytes = .ok p → p.encode.length < UInt64.size →
        ∃ q, decode comparators p.encode = .ok q ∧ p.Same q)) ∧
    ComparatorRegistry.standard.Stable := by
  refine ⟨fun comparators => ⟨fun p more hfilled hrebuild hlen => ?_,
    fun hstable bytes p hdecode hlen => ?_⟩, ComparatorRegistry.stable_standard⟩
  · obtain ⟨q, hread, hsame⟩ := reads_encode hfilled hrebuild hlen
    exact ⟨q, hread more, hsame⟩
  · obtain ⟨q, hread, hsame⟩ :=
      reads_encode (of_decode hdecode).1 (rebuildable_of_decode hstable hdecode) hlen
    exact ⟨q, hread.whole _, hsame⟩

/-! ### Bytes that no writer makes -/

/-- An operand with an `int` in two bytes, an unknown field and a `long`, which counts as the last
one. -/
def looseOperand : Bytes := [0x10, 0x85, 0x00, 0x40, 0x01, 0x18, 0x87, 0x00]

/-- What stands in front of a comparator: the family has its length in two bytes, and the payload is
there and empty. -/
def looseFront : Bytes :=
  [0x81, 0x00, 0x66] ++ (Frame.putBytes [0x71] ++ (Frame.putByte 2 ++ (Frame.putByte 6 ++
    (Frame.putBool true ++ (Frame.putBool false ++ (Frame.putText "x" ++
      (Frame.putOptional (some looseOperand) ++ (Frame.putOptional none ++ (Frame.putText "M" ++
        (Frame.putWide 9 ++ Frame.putOptional (some [])))))))))))

/-- The same with a comparator of some kind and state. -/
def looseBytes (kind : String) (state : Bytes) : Bytes :=
  looseFront ++ (Frame.putBool true ++ (Frame.putText kind ++ Frame.putBytes state))

/-- The predicate in them, with the comparator that is built. -/
def loosePredicate (c : Comparator) : ColumnPredicate where
  family := [0x66]
  qualifier := [0x71]
  compareOp := .equal
  matchOp := .scalar
  filterIfMissing := true
  latestVersionOnly := false
  path := "x"
  operand? := some (.scalar (.long 7))
  key := ⟨"M", ⟨9⟩⟩
  payload? := none
  comparator? := some c

theorem reads_looseFront (c : Comparator) :
    Reads readFront looseFront { loosePredicate c with comparator? := none } := by
  have hfamily : Reads Frame.bytes [0x81, 0x00, 0x66] [0x66] := fun rest =>
    Frame.bytes_eq_ok.mpr (Frame.varint_eq_ok.mpr (by simp [Varint.decode, Varint.decodeWithin]))
  have hoperand : operandOf (some looseOperand) none = .ok (some (.scalar (.long 7))) := rfl
  have htext : ∀ s : String, (Utf8.encode s).length ≤ 1 → Reads Frame.text (Frame.putText s) s :=
    fun s h => Frame.reads_text (Nat.lt_of_le_of_lt h (by decide))
  have hoptional : ∀ b : Option Bytes, (∀ c ∈ b, c.length ≤ 8) →
      Reads Frame.optional (Frame.putOptional b) b :=
    fun b h => Frame.reads_optional fun c hc => Nat.lt_of_le_of_lt (h c hc) (by decide)
  unfold readFront looseFront
  refine hfamily.bind ((Frame.reads_bytes (by decide)).bind ((Frame.reads_byte 2).bind ?_))
  refine .given (CompareOp.ofOrdinal_ordinal .equal) ((Frame.reads_byte 6).bind ?_)
  refine .given (MatchOp.ofKey_key .scalar) ((Frame.reads_bool true).bind ?_)
  refine (Frame.reads_bool false).bind ((htext "x" (by decide +kernel)).bind ?_)
  refine (hoptional _ (by decide)).bind ((hoptional none (by decide)).bind (.given hoperand ?_))
  refine (htext "M" (by decide +kernel)).bind ((Frame.reads_wide 9).bind ?_)
  exact (hoptional (some []) (by decide)).andReturn _

theorem decode_looseBytes {kind : String} {state : Bytes} {c : Comparator}
    (hkind : (Utf8.encode kind).length < UInt64.size) (hstate : state.length < UInt64.size)
    (hbuild : comparators.build kind state = .ok c) :
    decode comparators (looseBytes kind state) = .ok (loosePredicate c) := by
  have hcomparator : Reads (readComparator comparators)
      (Frame.putBool true ++ (Frame.putText kind ++ Frame.putBytes state)) (some c) := by
    refine (Frame.reads_bool true).bind ((Frame.reads_text hkind).bind ?_)
    exact (Frame.reads_bytes hstate).andThen (.given hbuild (.pure (some c)))
  rw [decode, read_eq, looseBytes]
  exact ((reads_looseFront c).bind (hcomparator.andReturn _)).whole _

/-- A substring in upper case, and a kind that is not built in with a state that is too long. -/
theorem travels_both_ways_loose :
    (∃ q, read .standard ((loosePredicate (.ofSubstring "ABC")).encode ++ [9]) = .ok (q, [9]) ∧
      (loosePredicate (.ofSubstring "ABC")).Same q) ∧
    (decode .standard (looseBytes "substring" [0x41, 0x42, 0x43]) =
      .ok (loosePredicate (.ofSubstring "ABC")) ∧
      ∃ q, decode .standard (loosePredicate (.ofSubstring "ABC")).encode = .ok q ∧
        (loosePredicate (.ofSubstring "ABC")).Same q) ∧
    decode .withLength (looseBytes "length" [5, 9]) = .ok (loosePredicate (.length 5)) ∧
    looseBytes "length" [5, 9] ≠ (loosePredicate (.length 5)).encode ∧
    ∃ q, decode .withLength (loosePredicate (.length 5)).encode = .ok q ∧
      (loosePredicate (.length 5)).Same q := by
  have hfilled : (loosePredicate (.ofSubstring "ABC")).Filled := fun b hb => by cases hb
  have hrebuild : (loosePredicate (.ofSubstring "ABC")).Rebuildable .standard :=
    rebuildable_standard fun c hc => by cases hc; exact .substring "ABC"
  have hlen : (loosePredicate (.ofSubstring "ABC")).encode.length < UInt64.size := by
    decide +kernel
  have hupper : decode .standard (looseBytes "substring" [0x41, 0x42, 0x43]) =
      .ok (loosePredicate (.ofSubstring "ABC")) := by
    have hutf8 : [0x41, 0x42, 0x43] = Utf8.encode "ABC" := by decide +kernel
    refine decode_looseBytes (by decide +kernel) (by decide) ?_
    rw [hutf8]
    refine (ComparatorRegistry.build_standard_name .substring _).trans ?_
    simp only [ComparatorKind.build, ComparatorRegistry.utf8_decode_encode, map_ok]
  have hlong : decode .withLength (looseBytes "length" [5, 9]) = .ok (loosePredicate (.length 5)) :=
    decode_looseBytes (by decide +kernel) (by decide)
      ((ComparatorRegistry.build_register _ _ _ _ _).trans (if_pos rfl))
  obtain ⟨hany, hstable⟩ := travels_both_ways
  exact ⟨(hany .standard).1 _ [9] hfilled hrebuild hlen,
    ⟨hupper, (hany .standard).2 hstable _ _ hupper hlen⟩, hlong, by decide +kernel,
    (hany .withLength).2 ComparatorRegistry.stable_withLength _ _ hlong (by decide +kernel)⟩

end CellFilter.ColumnPredicate
