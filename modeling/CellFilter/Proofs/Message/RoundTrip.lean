import CellFilter.Proofs.Message.Concatenation
import CellFilter.Proofs.Message.Forms

/-!
# Every form of a message reads back

Reading undoes writing.  A draft keeps the values of a number in the order in which their records
came and does not care what came between them, so that it finally holds under every number what the
records of that number hold together.

* `Draft.lookup_lists`, `Draft.lookup_singles`: what a draft holds after some records.
* `decode_of_form`: **every form** of a message is read for the message.
-/

namespace CellFilter

open Outcome

/-! ## Levels -/

mutual

/-- How many levels of messages a value adds. -/
def Value.nesting : Value → Nat
  | .atom _ => 0
  | .message m => m.nesting + 1
  | .list values => nestingOfAll values

/-- How many levels of messages are nested inside a message. -/
def Message.nesting : Message → Nat
  | ⟨_, fields⟩ => nestingOfFields fields

/-- The same of the values of a list together. -/
def nestingOfAll : List Value → Nat
  | [] => 0
  | v :: rest => max v.nesting (nestingOfAll rest)

/-- The same of all fields together. -/
def nestingOfFields : List (Nat × Value) → Nat
  | [] => 0
  | (_, v) :: rest => max v.nesting (nestingOfFields rest)

end

variable {s : Schema} {f : Field} {v w : Value} {n : Nat}

theorem nesting_le_nestingOfAll {vs : List Value} (h : v ∈ vs) : v.nesting ≤ nestingOfAll vs := by
  induction vs with
  | nil => cases h
  | cons first vs ih =>
    rw [nestingOfAll]
    rcases List.mem_cons.mp h with rfl | h
    · exact Nat.le_max_left _ _
    · exact (ih h).trans (Nat.le_max_right _ _)

theorem nesting_le_nestingOfFields {fs : List (Nat × Value)} (h : (n, v) ∈ fs) :
    v.nesting ≤ nestingOfFields fs := by
  induction fs with
  | nil => cases h
  | cons first fs ih =>
    rw [nestingOfFields]
    rcases List.mem_cons.mp h with rfl | h
    · exact Nat.le_max_left _ _
    · exact (ih h).trans (Nat.le_max_right _ _)

theorem nesting_le_of_occurrence (h : w ∈ v.occurrences) : w.nesting ≤ v.nesting := by
  cases v with
  | atom a => rw [List.mem_singleton.mp h]
  | message m => rw [List.mem_singleton.mp h]
  | list vs =>
    rw [Value.nesting]
    exact nesting_le_nestingOfAll h

theorem occurrences_of_single (h : v.Conforms s f false) : v.occurrences = [v] := by
  cases v with
  | atom a => rfl
  | message m => rfl
  | list vs => simp [Value.Conforms] at h

theorem list_occurrences (h : v.Conforms s f true) : .list v.occurrences = v := by
  cases v with
  | atom a => simp [Value.Conforms] at h
  | message m => simp [Value.Conforms] at h
  | list vs => rfl

theorem ListConforms.of_mem {vs : List Value} (h : ListConforms s f vs) (hv : v ∈ vs) :
    v.Conforms s f false := by
  induction vs with
  | nil => cases hv
  | cons first vs ih =>
    simp only [ListConforms] at h
    rcases List.mem_cons.mp hv with rfl | hv
    · exact h.1
    · exact ih h.2 hv

theorem conforms_of_occurrence (hv : v.Conforms s f f.repeated) (h : w ∈ v.occurrences) :
    w.Conforms s f false := by
  cases hrepeated : f.repeated with
  | false =>
    rw [hrepeated] at hv
    rw [occurrences_of_single hv] at h
    exact List.mem_singleton.mp h ▸ hv
  | true =>
    rw [hrepeated] at hv
    rw [← list_occurrences hv] at hv
    simp only [Value.Conforms] at hv
    exact hv.2.of_mem h

/-! ## What the records hold -/

variable {records : List WireRecord} {record : WireRecord} {vs : List Value}

theorem gathered_concat_of_ne (h : ∀ vs, record.holds ≠ some (n, vs)) :
    gathered (records ++ [record]) n = gathered records n := by
  unfold gathered
  rw [List.filterMap_append, List.filter_append]
  cases hholds : record.holds with
  | none => simp [hholds]
  | some held =>
    obtain ⟨m, vs⟩ := held
    have hm : m ≠ n := by
      rintro rfl
      exact h vs hholds
    simp [hholds, hm]

theorem gathered_concat (h : record.holds = some (n, vs)) :
    gathered (records ++ [record]) n = some ((gathered records n).getD [] ++ vs) := by
  unfold gathered
  rw [List.filterMap_append, List.filter_append]
  cases (records.filterMap WireRecord.holds).filter fun held => held.1 == n with
  | nil => simp [h]
  | cons first found => simp [h]

theorem WireRecord.entry_of_repeated (hf : s.fieldByNumber? n = some f)
    (hrepeated : f.repeated = true) (h : record.holds = some (n, vs)) :
    record.entry s = .more n vs := by
  cases record with
  | value m v =>
    cases h
    simp only [entry, hf, hrepeated, if_true]
  | run m atoms =>
    cases h
    rfl
  | stray => cases h

namespace Message.Draft

variable {d : Draft}

/-- A record leaves what stands under other numbers. -/
theorem add_entry_of_ne (h : ∀ vs, record.holds ≠ some (n, vs)) :
    (d.add (record.entry s)).lists.lookup n = d.lists.lookup n ∧
      (d.add (record.entry s)).singles.lookup n = d.singles.lookup n := by
  cases record with
  | value m v =>
    have hm : n ≠ m := by
      rintro rfl
      exact h _ rfl
    rw [WireRecord.entry]
    cases s.fieldByNumber? m with
    | none => exact ⟨rfl, rfl⟩
    | some g =>
      dsimp only
      split_ifs
      · exact ⟨by rw [add, addAll, lookup_putField, if_neg hm], rfl⟩
      · exact ⟨rfl, by rw [add, addSingle, lookup_putField, if_neg hm]⟩
  | run m atoms =>
    have hm : n ≠ m := by
      rintro rfl
      exact h _ rfl
    exact ⟨by rw [WireRecord.entry, add, addAll, lookup_putField, if_neg hm], rfl⟩
  | stray => exact ⟨rfl, rfl⟩

/-- The draft that records make. -/
def ofRecords (s : Schema) (records : List WireRecord) : Draft :=
  records.foldl (fun d record => d.add (record.entry s)) empty

theorem ofRecords_concat : ofRecords s (records ++ [record]) =
    (ofRecords s records).add (record.entry s) := by
  simp [ofRecords]

/-- A repeated field holds what its records hold together. -/
theorem lookup_lists (hf : s.fieldByNumber? n = some f) (hrepeated : f.repeated = true) :
    (ofRecords s records).lists.lookup n = (gathered records n).map .list := by
  induction records using List.reverseRecOn with
  | nil => rfl
  | append_singleton records record ih =>
    rw [ofRecords_concat]
    by_cases hown : ∃ vs, record.holds = some (n, vs)
    · obtain ⟨vs, hvs⟩ := hown
      rw [WireRecord.entry_of_repeated hf hrepeated hvs, gathered_concat hvs, add, addAll,
        lookup_putField, if_pos rfl, ih]
      cases gathered records n with
      | none => rw [Option.map_none, Value.merge_none]; rfl
      | some earlier => simp only [Option.map_some, Value.merge, Option.getD_some]
    · have hother : ∀ vs, record.holds ≠ some (n, vs) := not_exists.mp hown
      rw [(add_entry_of_ne hother).1, gathered_concat_of_ne hother, ih]

/-- A field that is not repeated holds its values merged one by one. -/
theorem lookup_singles (hf : s.fieldByNumber? n = some f) (hsingle : f.repeated = false)
    (hruns : ∀ atoms, .run n atoms ∉ records) : (ofRecords s records).singles.lookup n =
      ((gathered records n).getD []).foldl (fun e v => some (Value.merge e v)) none := by
  induction records using List.reverseRecOn with
  | nil => rfl
  | append_singleton records record ih =>
    have hbefore := ih fun atoms h => hruns atoms (List.mem_append_left _ h)
    rw [ofRecords_concat]
    by_cases hown : ∃ vs, record.holds = some (n, vs)
    · obtain ⟨vs, hvs⟩ := hown
      cases record with
      | value m v =>
        cases hvs
        have hentry : (WireRecord.value n v).entry s = .single n v := by
          simp only [WireRecord.entry, hf, hsingle, if_false, Bool.false_eq_true]
        rw [hentry, gathered_concat rfl, add, addSingle, lookup_putField, if_pos rfl, hbefore]
        simp
      | run m atoms =>
        cases hvs
        exact absurd (List.mem_append_right records List.mem_cons_self) (hruns atoms)
      | stray => cases hvs
    · have hother : ∀ vs, record.holds ≠ some (n, vs) := not_exists.mp hown
      rw [(add_entry_of_ne hother).2, gathered_concat_of_ne hother, hbefore]

end Message.Draft

/-! ## Reading undoes writing -/

theorem mem_gathered (hmem : record ∈ records) (h : record.holds = some (n, vs)) (hv : v ∈ vs) :
    ∃ all, gathered records n = some all ∧ v ∈ all := by
  have hheld : (n, vs) ∈ (records.filterMap WireRecord.holds).filter fun held => held.1 == n :=
    List.mem_filter.mpr ⟨List.mem_filterMap.mpr ⟨record, hmem, h⟩, beq_self_eq_true n⟩
  unfold gathered
  cases hfound : (records.filterMap WireRecord.holds).filter fun held => held.1 == n with
  | nil =>
    rw [hfound] at hheld
    cases hheld
  | cons first found =>
    rw [hfound] at hheld
    exact ⟨_, rfl, List.mem_flatMap.mpr ⟨(n, vs), hheld, hv⟩⟩

namespace Message

/-- The values of the records are those of the fields. -/
theorem exists_occurrence {fields : List (Nat × Value)} (hgathered : ∀ number,
    gathered records number = (fields.lookup number).map Value.occurrences)
    (hmem : .value n v ∈ records) : ∃ w, (n, w) ∈ fields ∧ v ∈ w.occurrences := by
  obtain ⟨all, hall, hv⟩ := mem_gathered hmem rfl (List.mem_singleton_self v)
  obtain ⟨w, hw, rfl⟩ := Option.map_eq_some_iff.mp ((hgathered n).symm.trans hall)
  exact ⟨w, mem_of_lookup hw, hv⟩

/-- Records that hold what the fields hold make a draft of the fields. -/
theorem finish_ofRecords {fields : List (Nat × Value)} (hascending : Ascending fields)
    (hconform : FieldsConform s fields) (hgathered : ∀ number,
      gathered records number = (fields.lookup number).map Value.occurrences)
    (hruns : ∀ n atoms, .run n atoms ∈ records → ∃ f, s.fieldByNumber? n = some f ∧
      f.repeated = true)
    (hdraft : (Draft.ofRecords s records).Conforms s) :
    (Draft.ofRecords s records).finish s = ⟨s, fields⟩ := by
  refine congrArg (Message.mk s) ((Draft.finished_conforms hdraft).1.ext hascending fun k => ?_)
  rw [Draft.lookup_finished hdraft]
  cases hf : s.fieldByNumber? k with
  | none =>
    have hnone : ∀ f, s.fieldByNumber? k = some f → ∀ repeated, f.repeated ≠ repeated := by
      intro f hsome
      cases hf.symm.trans hsome
    have habsent : fields.lookup k = none := by
      cases hv : fields.lookup k with
      | none => rfl
      | some v =>
        obtain ⟨f, hsome, -⟩ := fieldsConform_iff.mp hconform _ (mem_of_lookup hv)
        cases hf.symm.trans hsome
    rw [hdraft.lists.lookup_eq_none fun f h => hnone f h true,
      hdraft.singles.lookup_eq_none fun f h => hnone f h false, habsent]
    rfl
  | some f =>
    have hholds := hconform.lookup hf
    have hown : ∀ g, s.fieldByNumber? k = some g → g = f := by
      intro g hg
      exact (Option.some.inj (hf.symm.trans hg)).symm
    cases hrepeated : f.repeated with
    | true =>
      rw [hdraft.singles.lookup_eq_none fun g hg => by rw [hown g hg, hrepeated]; decide,
        Option.or_none, Draft.lookup_lists hf hrepeated, hgathered]
      cases hv : fields.lookup k with
      | none => rfl
      | some v => exact congrArg some (list_occurrences (hrepeated ▸ hholds v hv))
    | false =>
      have hsingle : ∀ atoms, .run k atoms ∉ records := by
        intro atoms hmem
        obtain ⟨g, hg, hmany⟩ := hruns k atoms hmem
        rw [hown g hg, hrepeated] at hmany
        cases hmany
      rw [hdraft.lists.lookup_eq_none fun g hg => by rw [hown g hg, hrepeated]; decide,
        Option.none_or, Draft.lookup_singles hf hrepeated hsingle, hgathered]
      cases hv : fields.lookup k with
      | none => rfl
      | some v =>
        rw [Option.map_some, Option.getD_some, occurrences_of_single (hrepeated ▸ hholds v hv)]
        exact congrArg some v.merge_none

theorem decodeWithin_form : ∀ (levels : Nat) (m : Message) (bytes : Bytes), m.Conforms →
    m.nesting < levels → MessageForm m bytes → decodeWithin levels m.schema bytes = .ok m
  | 0, _, _, _, h, _ => absurd h (Nat.not_lt_zero _)
  | levels + 1, m, bytes, hm, hlevels, h => by
    cases h with
    | @mk s fields pieces hrecords hgathered =>
    simp only [Message.Conforms] at hm
    simp only [Message.nesting] at hlevels
    obtain ⟨hascending, hconform⟩ := hm
    have hstep : ∀ p ∈ pieces, ∀ d rest, step (decodeWithin levels) s d (p.2 ++ rest) =
        .ok (d.add (p.1.entry s), rest) := by
      intro p hp d rest
      rw [step_eq, readEntry_form (hrecords p hp)]
      · rfl
      intro n inner body hinner hform
      have hmem : .value n (.message inner) ∈ pieces.map Prod.fst :=
        List.mem_map.mpr ⟨p, hp, hinner⟩
      obtain ⟨w, hw, hin⟩ := exists_occurrence hgathered hmem
      obtain ⟨f, -, hwc⟩ := fieldsConform_iff.mp hconform _ hw
      have hic := conforms_of_occurrence hwc hin
      simp only [Value.Conforms] at hic
      have hless : (Value.message inner).nesting ≤ nestingOfFields fields :=
        (nesting_le_of_occurrence hin).trans (nesting_le_nestingOfFields hw)
      rw [Value.nesting] at hless
      exact decodeWithin_form levels inner body hic.2.2 (by omega) hform
    have hread : consumeAll (step (decodeWithin levels) s) Draft.empty (joined pieces) =
        .ok (Draft.ofRecords s (pieces.map Prod.fst)) :=
      step_advances.consumeAll_pieces (fun d record => d.add (record.entry s)) pieces _ hstep
    have hdraft : (Draft.ofRecords s (pieces.map Prod.fst)).Conforms s :=
      consumeAll_keeps (fun _ _ _ hd hr => step_conforms (decodeWithin_conforms levels) hd hr)
        Draft.conforms_empty hread
    have hruns : ∀ n atoms, .run n atoms ∈ pieces.map Prod.fst →
        ∃ f, s.fieldByNumber? n = some f ∧ f.repeated = true := by
      intro n atoms hmem
      obtain ⟨⟨record, bytes⟩, hp, rfl⟩ := List.mem_map.mp hmem
      exact (hrecords _ hp).repeated_of_run
    rw [decodeWithin]
    show (consumeAll (step (decodeWithin levels) s) Draft.empty (joined pieces) >>= _) = _
    rw [hread, ok_bind]
    exact congrArg _ (finish_ofRecords hascending hconform hgathered hruns hdraft)

/-- **Every form** of a message is read for the message. -/
theorem decode_of_form {m : Message} {bytes : Bytes} (hm : m.Conforms)
    (hlevels : m.nesting ≤ maxDepth) (h : MessageForm m bytes) : decode m.schema bytes = .ok m :=
  decodeWithin_form (maxDepth + 1) m bytes hm (Nat.lt_succ_of_le hlevels) h

/-- A node of weight 5. -/
def innerNode : Message := ⟨nodeSchema, [(1, .atom (.i64 5))]⟩

/-- A node with a negative weight, two samples and a node inside. -/
def outerNode : Message :=
  ⟨nodeSchema, [(1, .atom (.i64 (-2))), (3, .list [.atom (.i64 1), .atom (.i64 300)]),
    (4, .message innerNode)]⟩

/-- The record of the inner node. -/
def innerRecords : List (WireRecord × Bytes) := [(.value 1 (.atom (.i64 5)), [8] ++ [5])]

/-- The records of the outer node: the inner node first, a run of one sample, a word that is not
declared, the weight, and a sample on its own. -/
def outerRecords : List (WireRecord × Bytes) :=
  [(.value 4 (.message innerNode), [34] ++ [2, 8, 5]),
    (.run 3 [.i64 1], [26] ++ [1, 1]),
    (.stray, [77] ++ [1, 2, 3, 4]),
    (.value 1 (.atom (.i64 (-2))), [8] ++ [254, 255, 255, 255, 255, 255, 255, 255, 255, 1]),
    (.value 3 (.atom (.i64 300)), [24] ++ [172, 2])]

theorem form_innerNode : MessageForm innerNode (joined innerRecords) := by
  refine .mk (List.forall_mem_singleton.mpr ?_) ?_
  · have hkey : FieldKey.Form ⟨1, .varint⟩ [8] :=
      ⟨by decide, by decide, Varint.form_byte (b := 8) (by decide)⟩
    have hweight : Varint.Form 5 [5] := Varint.form_byte (b := 5) (by decide)
    exact .value rfl hkey (.atom (.varint rfl hweight))
  · intro n
    by_cases h1 : n = 1
    · rw [h1]
      rfl
    · have hn : (1 == n) = false := beq_false_of_ne (Ne.symm h1)
      simp [gathered, innerRecords, WireRecord.holds, hn, lookup_cons_of_ne h1]

theorem form_outerNode : MessageForm outerNode (joined outerRecords) := by
  refine .mk ?_ ?_
  · simp only [outerRecords, List.forall_mem_cons]
    refine ⟨?_, ?_, ?_, ?_, ?_, List.forall_mem_nil _⟩
    · have hkey : FieldKey.Form ⟨4, .lengthDelimited⟩ [34] :=
        ⟨by decide, by decide, Varint.form_byte (b := 34) (by decide)⟩
      have hbody : Delimited (joined innerRecords) [2, 8, 5] :=
        ⟨[2], Varint.form_byte (b := 2) (by decide), rfl⟩
      exact .value rfl hkey (.message rfl form_innerNode hbody)
    · have hkey : FieldKey.Form ⟨3, .lengthDelimited⟩ [26] :=
        ⟨by decide, by decide, Varint.form_byte (b := 26) (by decide)⟩
      have hsample : Varint.Form 1 [1] := Varint.form_byte (b := 1) (by decide)
      have hrun : Delimited (joined [(Atom.i64 1, [1])]) [1, 1] := ⟨[1], hsample, rfl⟩
      have hatoms : ∀ p ∈ [(Atom.i64 1, [1])], AtomForm .int64 p.1 p.2 :=
        List.forall_mem_singleton.mpr (.varint rfl hsample)
      exact .run rfl rfl rfl hkey hatoms hrun
    · have hkey : FieldKey.Form ⟨9, .thirtyTwoBit⟩ [77] :=
        ⟨by decide, by decide, Varint.form_byte (b := 77) (by decide)⟩
      exact .stray rfl hkey (.word32 rfl)
    · have hkey : FieldKey.Form ⟨1, .varint⟩ [8] :=
        ⟨by decide, by decide, Varint.form_byte (b := 8) (by decide)⟩
      have hbytes : Varint.encode 18446744073709551614 =
          [254, 255, 255, 255, 255, 255, 255, 255, 255, 1] := by decide +kernel
      have hweight := hbytes ▸ Varint.form_encode (n := 18446744073709551614) (by decide)
      exact .value rfl hkey (.atom (.varint rfl hweight))
    · have hkey : FieldKey.Form ⟨3, .varint⟩ [24] :=
        ⟨by decide, by decide, Varint.form_byte (b := 24) (by decide)⟩
      have hsample : Varint.Form 300 [172, 2] :=
        ⟨.more (b := 172) (n := 2) (by decide) (.last (b := 2) (by decide)), by decide, by decide⟩
      exact .value rfl hkey (.atom (.varint rfl hsample))
  · intro n
    by_cases h1 : n = 1
    · rw [h1]
      rfl
    by_cases h3 : n = 3
    · rw [h3]
      rfl
    by_cases h4 : n = 4
    · rw [h4]
      rfl
    have hn : (1 == n) = false ∧ (3 == n) = false ∧ (4 == n) = false :=
      ⟨beq_false_of_ne (Ne.symm h1), beq_false_of_ne (Ne.symm h3), beq_false_of_ne (Ne.symm h4)⟩
    simp [gathered, outerRecords, List.filterMap_cons, WireRecord.holds, hn, lookup_cons_of_ne h1,
      lookup_cons_of_ne h3, lookup_cons_of_ne h4]

theorem outerNode_conforms : outerNode.Conforms := by
  have hinner : innerNode.Conforms := by
    simp only [innerNode, Message.Conforms, FieldsConform, and_true]
    refine ⟨List.pairwise_singleton _ _, _, rfl, ?_⟩
    simp only [Value.Conforms]
    exact ⟨trivial, trivial⟩
  simp only [outerNode, Message.Conforms, FieldsConform, and_true]
  refine ⟨?_, ⟨_, rfl, ?_⟩, ⟨_, rfl, ?_⟩, _, rfl, ?_⟩
  · simp [Ascending]
  · simp only [Value.Conforms]
    exact ⟨trivial, trivial⟩
  · simp only [Value.Conforms, ListConforms]
    exact ⟨trivial, ⟨trivial, trivial⟩, ⟨trivial, trivial⟩, trivial⟩
  · simp only [Value.Conforms]
    exact ⟨trivial, rfl, hinner⟩

theorem decode_of_form_outerNode : nodePool.Reachable ∧ outerNode.Conforms ∧
    outerNode.nesting ≤ maxDepth ∧ MessageForm outerNode (joined outerRecords) ∧
      decode nodeSchema [34, 2, 8, 5, 26, 1, 1, 77, 1, 2, 3, 4, 8, 254, 255, 255, 255, 255, 255,
        255, 255, 255, 1, 24, 172, 2] = .ok outerNode := by
  have hpool : SchemaPool.empty.addFile nodeUnit = .ok nodePool := by rfl
  exact ⟨.add .empty hpool, outerNode_conforms, by decide, form_outerNode,
    decode_of_form outerNode_conforms (by decide) form_outerNode⟩

end Message

end CellFilter
