import CellFilter.Comparator
import CellFilter.Proofs.Text.Order

/-!
# Ranges of cells

A binary comparator holds a fixed value and says where it stands relative to a cell, so the greater the
cell, the less the result.  A prefix comparator does the same with the front of a cell, and cutting all
cells at one length keeps their order.  So the cells that an ordering operator accepts lie next to each
other in the order of bytes.

* `Bytes.take_le_take`: cells cut at one length stay in order.
* `Bytes.compare_take`: a value is compared with the front of a cell, then with what is left.
* `CompareOp.accepts_between`: ordering operators accept what lies between two accepted results.
* `Comparator.binaries_descend`: **results descend** as cells ascend, where they are 0, and the ranges.
-/

namespace CellFilter

/-! ## Byte strings in order -/

namespace Bytes

variable {a b : Bytes}

/-- The comparison of byte strings is their lexicographic order. -/
theorem compare_eq_lt : a.compare b = .lt ↔ a < b := by
  induction a generalizing b with
  | nil =>
    cases b with
    | nil => exact iff_of_false (by decide) (List.lt_irrefl [])
    | cons y b => exact iff_of_true rfl (List.nil_lt_cons y b)
  | cons x a ih =>
    cases b with
    | nil => exact iff_of_false (by simp [compare]) (List.not_lt_nil _)
    | cons y b =>
      rw [compare, List.cons_lt_cons_iff]
      split_ifs with hlt hgt
      · exact iff_of_true rfl (.inl hlt)
      · refine iff_of_false (by decide) ?_
        rintro (h | ⟨rfl, -⟩)
        · exact hlt h
        · exact UInt8.lt_irrefl x hgt
      · have heq : x = y := UInt8.le_antisymm (UInt8.not_lt.mp hgt) (UInt8.not_lt.mp hlt)
        rw [ih]
        exact ⟨fun h => .inr ⟨heq, h⟩, fun h => (h.resolve_left hlt).2⟩

theorem compare_eq_gt : a.compare b = .gt ↔ b < a := by
  rw [compare_swap, Ordering.swap_eq_gt, compare_eq_lt]

/-- Byte strings cut at one length stay in order, though different ones may become equal. -/
theorem take_le_take : ∀ (n : Nat) {a b : Bytes}, a ≤ b → a.take n ≤ b.take n
  | 0, _, _, _ => List.le_refl []
  | _ + 1, [], _, _ => List.nil_le _
  | n + 1, x :: a, [], h => absurd (List.nil_lt_cons x a) (List.not_lt.mpr h)
  | n + 1, x :: a, y :: b, h => by
    rw [List.take_succ_cons, List.take_succ_cons, List.cons_le_cons_iff]
    exact (List.cons_le_cons_iff.mp h).imp_right fun hrest => ⟨hrest.1, take_le_take n hrest.2⟩

/-- A value is compared with the front of a cell first; if that is the value itself, the cell is the
greater one as soon as anything follows. -/
theorem compare_take : ∀ w v : Bytes, w.compare v =
    (w.compare (v.take w.length)).then (if w.length < v.length then .lt else .eq)
  | [], [] => rfl
  | [], _ :: _ => rfl
  | _ :: _, [] => rfl
  | x :: w, y :: v => by
    simp only [List.length_cons, List.take_succ_cons, compare, Nat.succ_lt_succ_iff]
    rw [compare_take w v]
    by_cases hlt : x < y
    · rw [if_pos hlt, if_pos hlt]
      rfl
    · rw [if_neg hlt, if_neg hlt]
      by_cases hgt : y < x
      · rw [if_pos hgt, if_pos hgt]
        rfl
      · rw [if_neg hgt, if_neg hgt]

theorem prefix_iff_compare_take {w v : Bytes} : w.compare (v.take w.length) = .eq ↔ w <+: v := by
  rw [compare_eq_eq, List.prefix_iff_eq_take]

/-- What a byte string begins with comes before it. -/
theorem lt_of_prefix (h : a <+: b) (hlen : a.length < b.length) : a < b := by
  rw [← compare_eq_lt, compare_take, prefix_iff_compare_take.mpr h, if_pos hlen]
  rfl

/-- A set of byte strings that holds everything between two of its members. -/
def Contiguous (cells : Bytes → Prop) : Prop :=
  ∀ a b c : Bytes, a ≤ b → b ≤ c → cells a → cells c → cells b

end Bytes

/-! ## Results in order -/

/-- Ordering operators accept what lies between two results that they accept. -/
theorem CompareOp.accepts_between {op : CompareOp} (hop : op ≠ .notEqual) {x y z : Int} (hxy : x ≤ y)
    (hyz : y ≤ z) (hx : op.accepts x = true) (hz : op.accepts z = true) : op.accepts y = true := by
  cases op with
  | notEqual => exact absurd rfl hop
  | _ =>
    simp only [accepts, decide_eq_true_eq] at *
    omega

theorem orderSign_eq_zero {r : Ordering} : orderSign r = 0 ↔ r = .eq := by
  cases r <;> decide

/-- Where a value stands relative to a greater cell is no greater. -/
theorem orderSign_compare_le (w : Bytes) {a b : Bytes} (h : a ≤ b) :
    orderSign (w.compare b) ≤ orderSign (w.compare a) := by
  cases hb : w.compare b with
  | lt => cases w.compare a <;> decide
  | eq =>
    obtain rfl := Bytes.compare_eq_eq.mp hb
    have hnot : w.compare a ≠ .lt := fun hlt => List.not_lt.mpr h (Bytes.compare_eq_lt.mp hlt)
    cases ha : w.compare a with
    | lt => exact absurd ha hnot
    | eq => decide
    | gt => decide
  | gt =>
    have hless : a < w := List.lt_of_le_of_lt h (Bytes.compare_eq_gt.mp hb)
    exact Int.le_of_eq (congrArg orderSign (Bytes.compare_eq_gt.mpr hless).symm)

namespace Comparator

/-- The greater the cell, the less the result. -/
def Descends (c : Comparator) : Prop := ∀ a b : Bytes, a ≤ b → c.compareTo b ≤ c.compareTo a

theorem Descends.contiguous {c : Comparator} (h : c.Descends) {op : CompareOp}
    (hop : op ≠ .notEqual) : Bytes.Contiguous fun cell => op.accepts (c.compareTo cell) = true := by
  intro x y z hxy hyz hx hz
  exact CompareOp.accepts_between hop (h y z hyz) (h x y hxy) hz hx

variable (w : Bytes)

theorem binary_descends : (binary w).Descends := fun _ _ => orderSign_compare_le w

theorem binaryPrefix_descends : (binaryPrefix w).Descends := fun _ _ h =>
  orderSign_compare_le w (Bytes.take_le_take w.length h)

/-- A value is greater than each shorter cell that it begins with. -/
theorem binaryPrefix_of_shorter {v : Bytes} (hlen : v.length < w.length) (hv : v <+: w) :
    0 < (binaryPrefix w).compareTo v := by
  have hless : v < w := Bytes.lt_of_prefix hv hlen
  rw [compareTo_binaryPrefix, List.take_of_length_le (Nat.le_of_lt hlen), Bytes.compare_eq_gt.mpr hless]
  decide

/-- Only what follows the value in a cell can make a difference between the two comparators. -/
theorem binaryPrefix_eq_binary {v : Bytes} (h : ¬ (w <+: v ∧ v ≠ w)) :
    (binaryPrefix w).compareTo v = (binary w).compareTo v := by
  rw [compareTo_binaryPrefix, compareTo_binary, Bytes.compare_take w v]
  by_cases hbegins : w <+: v
  · have hsame : v = w := by
      by_contra hne
      exact h ⟨hbegins, hne⟩
    subst hsame
    rw [if_neg (Nat.lt_irrefl _), Ordering.then_eq]
  · have hne : w.compare (v.take w.length) ≠ .eq := fun heq =>
      hbegins (Bytes.prefix_iff_compare_take.mp heq)
    cases hfront : w.compare (v.take w.length) with
    | eq => exact absurd hfront hne
    | lt => rfl
    | gt => rfl

/-- **Comparators with a fixed value.**  Their results descend as the cells ascend.  The binary
comparator yields 0 for the value alone and the prefix comparator for the cells that begin with it.
The latter is positive for a shorter cell that the value begins with, and agrees with the former on
every cell that is not the value with something behind it.  What an ordering operator accepts by
either is one range of cells. -/
theorem binaries_descend :
    (∀ a b : Bytes, a ≤ b → (binary w).compareTo b ≤ (binary w).compareTo a) ∧
    (∀ a b : Bytes, a ≤ b → (binaryPrefix w).compareTo b ≤ (binaryPrefix w).compareTo a) ∧
    (∀ v, (binary w).compareTo v = 0 ↔ v = w) ∧
    (∀ v, (binaryPrefix w).compareTo v = 0 ↔ w <+: v) ∧
    (∀ v, v.length < w.length → v <+: w → 0 < (binaryPrefix w).compareTo v) ∧
    (∀ v, ¬ (w <+: v ∧ v ≠ w) → (binaryPrefix w).compareTo v = (binary w).compareTo v) ∧
    ∀ c ∈ [binary w, binaryPrefix w], ∀ op : CompareOp, op ≠ .notEqual →
      Bytes.Contiguous fun cell => op.accepts (c.compareTo cell) = true := by
  refine ⟨binary_descends w, binaryPrefix_descends w, fun v => ?_, fun v => ?_,
    fun v => binaryPrefix_of_shorter w, fun v => binaryPrefix_eq_binary w, fun c hc op hop => ?_⟩
  · rw [compareTo_binary, orderSign_eq_zero, Bytes.compare_eq_eq, eq_comm]
  · rw [compareTo_binaryPrefix, orderSign_eq_zero, Bytes.prefix_iff_compare_take]
  · have hdescends : c.Descends := by
      rcases List.mem_pair.mp hc with rfl | rfl
      · exact binary_descends w
      · exact binaryPrefix_descends w
    exact hdescends.contiguous hop

/-- The value "con" with the cells "co", "con" and "contains". -/
theorem binaries_descend_con :
    ([99, 111] : Bytes) ≤ [99, 111, 110] ∧
    ([99, 111, 110] : Bytes) ≤ [99, 111, 110, 116, 97, 105, 110, 115] ∧
    (binary [99, 111, 110]).compareTo [99, 111, 110] ≤ (binary [99, 111, 110]).compareTo [99, 111] ∧
    (binaryPrefix [99, 111, 110]).compareTo [99, 111, 110, 116, 97, 105, 110, 115] = 0 ∧
    0 < (binaryPrefix [99, 111, 110]).compareTo [99, 111] ∧
    (binaryPrefix [99, 111, 110]).compareTo [99, 111] = (binary [99, 111, 110]).compareTo [99, 111] ∧
    CompareOp.greaterOrEqual.accepts ((binaryPrefix [99, 111, 110]).compareTo [99, 111, 110]) =
      true := by
  have hshort : ([99, 111] : Bytes) ≤ [99, 111, 110] := by decide
  have hlong : ([99, 111, 110] : Bytes) ≤ [99, 111, 110, 116, 97, 105, 110, 115] := by decide
  obtain ⟨hbinary, -, -, hzero, hpositive, hagree, hrange⟩ := binaries_descend [99, 111, 110]
  have haccepts := hrange (binaryPrefix [99, 111, 110]) (List.mem_pair.mpr (.inr rfl))
    .greaterOrEqual (by decide) _ _ _ hshort hlong (by decide) (by decide)
  exact ⟨hshort, hlong, hbinary _ _ hshort, (hzero _).mpr (by decide),
    hpositive _ (by decide) (by decide), hagree _ (by decide), haccepts⟩

end Comparator

end CellFilter
