import CellFilter.Proofs.Filter.Row
import CellFilter.Proofs.Message.Modes

/-!
# Looking for a message of one's own

A predicate can be made from the value of a cell, to look for cells that hold the same message.  It
finds the cell that it was made from as long as the message is equal to itself, and it is not if there
is a NaN somewhere in it: values are compared as numbers here, whereas the comparison of a single
field with a scalar goes by the total order of words, in which a NaN has its place.

* `Message.matchBy_self`: a decoded message, matched with itself.
* `ColumnTarget.isEqualTo_own`: **the cell that a predicate was made from**.
* `ColumnTarget.isEqualTo_own_nan`: a cell that is not found, although its one field compares equal.
-/

namespace CellFilter

open Outcome

namespace Message

variable {m : Message}

theorem covers_self (m : Message) : m.covers m = true :=
  List.all_eq_true.mpr fun _ hk => decide_eq_true (List.mem_map_of_mem hk)

/-- All present fields of a message agree with the message itself just if it holds no NaN. -/
theorem all_agrees_self (hm : m.Conforms) (hs : m.schema.pool.Built)
    (hnames : m.schema.NamesApart) : m.presentFields.all m.agrees = m.isNaNFree := by
  have hself := exact_iff_valueEq hm hm rfl hs hnames
  rw [m.covers_self, Bool.true_and] at hself
  rw [Bool.eq_iff_iff, hself, valueEq_self]

/-- **A decoded message, matched with itself**, in a mode that asks for all fields. -/
theorem matchBy_self {s : Schema} {bytes : Bytes} (hs : s.pool.Reachable) (hnames : s.NamesApart)
    (h : decode s bytes = .ok m) :
    matchBy .equal m m = .ok m.isNaNFree ∧ matchBy .exact m m = .ok m.isNaNFree ∧
      matchBy .notEqual m m = .ok (!m.isNaNFree) ∧
      matchBy .notExact m m = .ok (!m.isNaNFree) := by
  obtain ⟨rfl, hm⟩ := conforms_of_decode h
  have hdistinct := nodup_presentFields hm hs.built hnames
  have hall := all_agrees_self hm hs.built hnames
  have hanswer : ∀ op, op ≠ .scalar → matchBy op m m =
      .ok (op.answer m.isNaNFree (m.presentFields.any m.agrees) m.isNaNFree) := by
    intro op hop
    rw [matchBy_eq_answer hop hdistinct hdistinct, hall, m.covers_self, Bool.true_and]
  exact ⟨hanswer _ (by decide), hanswer _ (by decide), hanswer _ (by decide),
    hanswer _ (by decide)⟩

end Message

namespace ColumnTarget

variable {target : ColumnTarget} {s : Schema} {bytes value : Bytes} {m v : Message}

/-- A test for a message takes the values that match it exactly. -/
theorem accepts_isEqualTo (h : Message.decode s value = .ok v) :
    ColumnTest.accepts ⟨target.isEqualTo bytes, s, .message m⟩ value =
      Message.matchBy .exact m v := by
  show (Message.decode s value >>= fun message => Message.matchBy .exact m message) = _
  rw [h, ok_bind]

/-- **The cell that a predicate was made from.**  A decoded message matches itself, in the modes that
ask for all fields, just if it holds no NaN at any depth.  So a predicate that looks for the message
of a cell takes the cell just if there is no NaN. -/
theorem isEqualTo_own (hs : s.pool.Reachable) (hnames : s.NamesApart)
    (h : Message.decode s bytes = .ok m) :
    (Message.matchBy .equal m m = .ok m.isNaNFree ∧ Message.matchBy .exact m m = .ok m.isNaNFree ∧
      Message.matchBy .notEqual m m = .ok (!m.isNaNFree) ∧
      Message.matchBy .notExact m m = .ok (!m.isNaNFree)) ∧
    ∀ target : ColumnTarget, (target.isEqualTo bytes).wantedIn s = .ok (.message m) ∧
      ∀ test : ColumnTest, test = ⟨target.isEqualTo bytes, s, .message m⟩ →
        ∀ cell : Cell, test.concerns cell = true → Message.decode s cell.value = .ok m →
          test.onValue .notFound cell =
            .ok (if m.isNaNFree then (.include, .matched) else (test.missCode, .unmatched)) := by
  have hself := Message.matchBy_self hs hnames h
  refine ⟨hself, fun target => ⟨?_, ?_⟩⟩
  · show (Message.decode s bytes).map Wanted.message = _
    rw [h, map_ok]
  · rintro test rfl cell hconcerns hcell
    rw [ColumnTest.onValue_here rfl hconcerns, accepts_isEqualTo hcell, hself.2.1, map_ok]

/-- A target on the column of probes. -/
def probeTarget : ColumnTarget where
  family := [102]
  qualifier := [113]
  key := ⟨"demo.Probe", ⟨0⟩⟩
  payload? := none

/-- A test for the message of some bytes in the column of probes. -/
def probeTest (bytes : Bytes) (m : Message) : ColumnTest :=
  ⟨probeTarget.isEqualTo bytes, Message.probeSchema, .message m⟩

theorem isEqualTo_own_probe :
    Message.probePool.Reachable ∧ Message.probeSchema.NamesApart ∧
    Message.decode Message.probeSchema [8, 5, 26, 10, 18, 8, 0, 0, 0, 0, 0, 0, 0, 0] =
      .ok Message.probeOperand ∧
    Message.matchBy .exact Message.probeOperand Message.probeOperand = .ok true ∧
    (probeTest [8, 5, 26, 10, 18, 8, 0, 0, 0, 0, 0, 0, 0, 0] Message.probeOperand).onValue .notFound
      ⟨[102], [113], [8, 5, 26, 10, 18, 8, 0, 0, 0, 0, 0, 0, 0, 0]⟩ =
        .ok (.include, .matched) := by
  have hdecode : Message.decode Message.probeSchema
      [8, 5, 26, 10, 18, 8, 0, 0, 0, 0, 0, 0, 0, 0] = .ok Message.probeOperand := rfl
  obtain ⟨⟨-, hexact, -, -⟩, htests⟩ := isEqualTo_own Message.probePool_reachable
    Message.probeSchema_namesApart hdecode
  have hfree : Message.probeOperand.isNaNFree = true := by decide +kernel
  rw [hfree] at hexact htests
  exact ⟨Message.probePool_reachable, Message.probeSchema_namesApart, hdecode, hexact,
    (htests probeTarget).2 _ rfl _ rfl hdecode⟩

/-- A number, and a NaN for the level. -/
def probeNaN : Message :=
  ⟨Message.probeSchema, [(1, .atom (.i64 5)), (4, .atom (.f32 ⟨0x7FC00000⟩))]⟩

/-- The message with a NaN does not match itself, and the cell that holds it is left; but the NaN
compares equal to itself as a scalar. -/
theorem isEqualTo_own_nan :
    Message.probePool.Reachable ∧ Message.probeSchema.NamesApart ∧
    Message.decode Message.probeSchema [8, 5, 37, 0, 0, 192, 127] = .ok probeNaN ∧
    Message.matchBy .equal probeNaN probeNaN = .ok false ∧
    Message.matchBy .exact probeNaN probeNaN = .ok false ∧
    Message.matchBy .notEqual probeNaN probeNaN = .ok true ∧
    Message.matchBy .notExact probeNaN probeNaN = .ok true ∧
    (probeTest [8, 5, 37, 0, 0, 192, 127] probeNaN).onValue .notFound
      ⟨[102], [113], [8, 5, 37, 0, 0, 192, 127]⟩ = .ok (.skipRow, .unmatched) ∧
    Path.compare "level" (some (.float ⟨0x7FC00000⟩)) .equal probeNaN none = .ok true := by
  have hdecode : Message.decode Message.probeSchema [8, 5, 37, 0, 0, 192, 127] = .ok probeNaN := rfl
  have hself := Message.matchBy_self Message.probePool_reachable Message.probeSchema_namesApart
    hdecode
  have hnan : probeNaN.isNaNFree = false := by decide +kernel
  rw [hnan] at hself
  obtain ⟨hequal, hexact, hnotEqual, hnotExact⟩ := hself
  refine ⟨Message.probePool_reachable, Message.probeSchema_namesApart, hdecode, hequal, hexact,
    hnotEqual, hnotExact, ?_, by decide +kernel⟩
  rw [ColumnTest.onValue_here rfl rfl, probeTest, accepts_isEqualTo hdecode, hexact]
  rfl

end ColumnTarget

end CellFilter
