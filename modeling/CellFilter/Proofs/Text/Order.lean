import CellFilter.Proofs.Filter.Bundling

/-!
# The order of texts

Texts are ordered by their bytes.  This is a linear order, so that sorting texts and dropping each
that repeats the one before it leaves every text once.

* `Bytes.compare_eq_compare`: bytes are compared as lists.
* `Scalar.Ascending`: texts in order, each once.
* `ascending_distinct`, `mem_distinct`: **sorted texts without repetitions** are these texts, in
  order and each once.
-/

namespace CellFilter

theorem Bytes.compare_eq_compare : ∀ a b : Bytes, a.compare b = Ord.compare a b
  | [], [] => rfl
  | [], _ :: _ => rfl
  | _ :: _, [] => rfl
  | x :: a, y :: b => by
    rw [Bytes.compare, List.compare_cons_cons, compare_eq_compare a b]
    show _ = (compareOfLessAndEq x y).then _
    unfold compareOfLessAndEq
    by_cases hlt : x < y
    · simp [hlt]
    · by_cases heq : x = y
      · simp [heq, UInt8.lt_irrefl]
      · have hgt : y < x := by
          rcases UInt8.lt_or_lt_of_ne heq with h | h
          · exact absurd h hlt
          · exact h
        simp [hlt, heq, hgt]

theorem Bytes.compare_swap (a b : Bytes) : a.compare b = (b.compare a).swap := by
  rw [compare_eq_compare, compare_eq_compare]
  exact Std.OrientedCmp.eq_swap

namespace Scalar

instance : Std.TransCmp compareText where
  eq_swap := Bytes.compare_swap _ _
  isLE_trans := by
    intro a b c hab hbc
    rw [compareText, Bytes.compare_eq_compare] at hab hbc ⊢
    exact Std.TransCmp.isLE_trans hab hbc

/-- Texts in order, each once. -/
def Ascending (texts : List String) : Prop := texts.Pairwise fun a b => compareText a b = .lt

/-- Texts in order, with repetitions. -/
theorem pairwise_mergeSort (texts : List String) :
    (texts.mergeSort fun a b => compareText a b != .gt).Pairwise
      fun a b => (compareText a b).isLE = true := by
  have hle : (fun a b => compareText a b != .gt) = fun a b => (compareText a b).isLE := by
    funext a b
    cases compareText a b <;> rfl
  rw [hle]
  refine List.pairwise_mergeSort (fun a b c => Std.TransCmp.isLE_trans) (fun a b => ?_) texts
  have hswap : compareText b a = (compareText a b).swap := Std.OrientedCmp.eq_swap
  rw [hswap]
  cases compareText a b <;> rfl

end Scalar

/-! ## Dropping repetitions -/

theorem eraseReps_cons_cons (a b : String) (rest : List String) :
    (a :: b :: rest).eraseReps =
      if a = b then (b :: rest).eraseReps else a :: (b :: rest).eraseReps := by
  -- what is gathered on the way stands in front of what comes out
  have hloop : ∀ (rest : List String) (a : String) (gathered : List String),
      List.eraseRepsBy.loop (· == ·) a rest gathered =
        gathered.reverse ++ List.eraseRepsBy.loop (· == ·) a rest [] := by
    intro rest
    induction rest with
    | nil => simp [List.eraseRepsBy.loop]
    | cons b rest ih =>
      intro a gathered
      simp only [List.eraseRepsBy.loop]
      cases a == b with
      | true => exact ih a gathered
      | false =>
        rw [ih b (a :: gathered), ih b [a]]
        simp
  show List.eraseRepsBy.loop (· == ·) a (b :: rest) [] = _
  rw [List.eraseRepsBy.loop]
  by_cases h : a = b
  · rw [if_pos h, beq_iff_eq.mpr h, h]
    rfl
  · rw [if_neg h, beq_false_of_ne h, hloop rest b [a]]
    rfl

@[simp] theorem mem_eraseReps {text : String} : ∀ {texts : List String},
    text ∈ texts.eraseReps ↔ text ∈ texts
  | [] => Iff.rfl
  | [_] => Iff.rfl
  | a :: b :: rest => by
    rw [eraseReps_cons_cons]
    split
    · rename_i h
      rw [mem_eraseReps, h]
      simp
    · rw [List.mem_cons, mem_eraseReps, List.mem_cons (b := a)]

namespace Scalar

theorem ascending_eraseReps : ∀ {texts : List String},
    (texts.Pairwise fun a b => (compareText a b).isLE = true) → Ascending texts.eraseReps
  | [], _ => .nil
  | [a], _ => List.pairwise_singleton _ a
  | a :: b :: rest, h => by
    rw [eraseReps_cons_cons]
    have hrest := ascending_eraseReps (List.Pairwise.of_cons h)
    split
    · exact hrest
    · rename_i hne
      refine List.pairwise_cons.mpr ⟨fun c hc => ?_, hrest⟩
      rw [mem_eraseReps] at hc
      have hab : compareText a b = .lt := by
        have hle := List.rel_of_pairwise_cons h List.mem_cons_self
        cases hcmp : compareText a b with
        | lt => rfl
        | eq => exact absurd (compareText_eq_eq.mp hcmp) hne
        | gt => rw [hcmp] at hle; cases hle
      rcases List.mem_cons.mp hc with rfl | hmem
      · exact hab
      · exact Std.TransCmp.lt_of_lt_of_isLE hab
          (List.rel_of_pairwise_cons (List.Pairwise.of_cons h) hmem)

/-- Each of some texts once, in order. -/
theorem ascending_distinct (texts : List String) :
    Ascending (texts.mergeSort fun a b => compareText a b != .gt).eraseReps :=
  ascending_eraseReps (pairwise_mergeSort texts)

theorem mem_distinct {texts : List String} {text : String} :
    text ∈ (texts.mergeSort fun a b => compareText a b != .gt).eraseReps ↔ text ∈ texts := by
  rw [mem_eraseReps, (List.mergeSort_perm texts _).mem_iff]

end Scalar

end CellFilter
