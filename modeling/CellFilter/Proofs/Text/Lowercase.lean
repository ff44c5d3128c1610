import CellFilter.Text.LetterCase
import Mathlib.Data.List.Nodup

/-!
# Lower case stays lower case

Putting a text into lower case twice is the same as doing it once: no run of the table leads into
the letters of another run, and of the two letters with rules of their own neither is a lower-case
form.

* `lowerRuns_apart`: the check of the table.
* `lowercase_lowercase`: lower case is idempotent.
-/

namespace CellFilter.LetterCase

/-- Whether a run has a code point. -/
def covers (r : Nat × Nat × Nat × Int) (c : Nat) : Bool :=
  decide (r.1 ≤ c) && decide (c ≤ r.2.1) && (c - r.1) % r.2.2.1 == 0

/-- The first form that a run leads to. -/
def low (r : Nat × Nat × Nat × Int) : Nat := (r.1 + r.2.2.2).toNat

/-- The last form that a run leads to. -/
def high (r : Nat × Nat × Nat × Int) : Nat := (r.2.1 + r.2.2.2).toNat

/-- Whether no form that one run leads to is among the code points of another run: it lies in front
of them, behind them, or between them. -/
def apart (r q : Nat × Nat × Nat × Int) : Bool :=
  decide (high r < q.1) || decide (q.2.1 < low r) ||
    ((r.2.2.1 == 2 || r.1 == r.2.1) && q.2.2.1 == 2 && (low r + q.1) % 2 == 1)

/-- Whether the forms that a run leads to are characters, and none of them a dotted capital I. -/
def leadsToChars (r : Nat × Nat × Nat × Int) : Bool :=
  decide (0 ≤ r.1 + r.2.2.2) && (decide (high r < 0xD800) || decide (0xDFFF < low r)) &&
    decide (high r < 0x110000) && (decide (high r < 0x130) || decide (0x130 < low r))

theorem apply_of_find (runs : CaseRuns) (c : Nat) :
    (∃ r ∈ runs, covers r c = true ∧ runs.apply c = ((c : Int) + r.2.2.2).toNat) ∨
      (∀ r ∈ runs, covers r c = false) ∧ runs.apply c = c := by
  unfold CaseRuns.apply covers
  split
  · next r h => exact Or.inl ⟨r, List.mem_of_find?_eq_some h, by simpa using List.find?_some h, rfl⟩
  · next h => exact Or.inr ⟨fun r hr => by simpa using List.find?_eq_none.mp h r hr, rfl⟩

theorem covers_of_apart {r q : Nat × Nat × Nat × Int} {c : Nat} (ha : apart r q = true)
    (hr : covers r c = true) (hc : leadsToChars r = true) :
    covers q ((c : Int) + r.2.2.2).toNat = false := by
  obtain ⟨first, last, step, shift⟩ := r
  obtain ⟨first', last', step', shift'⟩ := q
  simp only [apart, covers, leadsToChars, Bool.or_eq_true, Bool.and_eq_true, decide_eq_true_eq,
    beq_iff_eq] at ha hr hc
  simp only [low, high] at ha hc
  by_contra hcovered
  simp only [covers, Bool.not_eq_false, Bool.and_eq_true, decide_eq_true_eq, beq_iff_eq] at hcovered
  rcases ha with (hbefore | hbehind) | ⟨⟨hthin, rfl⟩, hbetween⟩
  · omega
  · omega
  · rcases hthin with rfl | rfl
    · omega
    · omega

/-- The runs lead to letters without a lower-case form of their own. -/
theorem lowerRuns_apart : (lowerRuns.all fun r => leadsToChars r && lowerRuns.all (apart r)) = true := by
  decide +kernel

/-- A letter that is in lower case. -/
structure Lower (c : Char) : Prop where
  dotted : c.toNat ≠ 0x130
  sigma : c.toNat ≠ 0x3A3
  fixed : lowerRuns.apply c.toNat = c.toNat

theorem lowerChar_of_lower {before after : List Char} {c : Char} (h : Lower c) :
    lowerChar before c after = [c] := by
  rw [lowerChar, if_neg h.dotted, if_neg h.sigma, h.fixed, Char.ofNat_toNat]

theorem lowerChars_of_lower {before cs : List Char} (h : ∀ c ∈ cs, Lower c) :
    lowerChars before cs = cs := by
  induction cs generalizing before with
  | nil => rfl
  | cons c cs ih =>
    rw [lowerChars, lowerChar_of_lower (h c List.mem_cons_self),
      ih fun d hd => h d (List.mem_cons_of_mem c hd)]
    rfl

theorem lower_apply {c : Char} (hdotted : c.toNat ≠ 0x130) (hsigma : c.toNat ≠ 0x3A3) :
    Lower (Char.ofNat (lowerRuns.apply c.toNat)) := by
  have hself : ∀ n, (∀ r ∈ lowerRuns, covers r n = false) → lowerRuns.apply n = n := by
    intro n hn
    rcases apply_of_find lowerRuns n with ⟨r, hr, hcovered, -⟩ | ⟨-, h⟩
    · rw [hn r hr] at hcovered
      cases hcovered
    · exact h
  rcases apply_of_find lowerRuns c.toNat with ⟨r, hr, hcovered, happly⟩ | ⟨-, happly⟩
  · have hrow := List.all_eq_true.mp lowerRuns_apart r hr
    rw [Bool.and_eq_true] at hrow
    have hfree : ∀ q ∈ lowerRuns, covers q (lowerRuns.apply c.toNat) = false := by
      intro q hq
      rw [happly]
      exact covers_of_apart (List.all_eq_true.mp hrow.2 q hq) hcovered hrow.1
    have hchars := hrow.1
    simp only [leadsToChars, covers, Bool.and_eq_true, Bool.or_eq_true, decide_eq_true_eq]
      at hchars hcovered
    unfold low high at hchars
    have hvalid : (lowerRuns.apply c.toNat).isValidChar := by
      rw [happly]
      exact by unfold Nat.isValidChar; omega
    have hchar : (Char.ofNat (lowerRuns.apply c.toNat)).toNat = lowerRuns.apply c.toNat := by
      rw [Char.ofNat, dif_pos hvalid]
      rfl
    refine ⟨?_, ?_, ?_⟩
    · rw [hchar, happly]
      omega
    · rw [hchar]
      intro hv
      -- capital sigma lies in a run, and no run leads into one
      have hcapital := hfree (931, 939, 1, 32) (by decide +kernel)
      rw [hv] at hcapital
      revert hcapital
      decide
    · rw [hchar, hself _ hfree]
  · rw [happly, Char.ofNat_toNat]
    exact ⟨hdotted, hsigma, happly⟩

theorem lower_of_lowerChar {before after : List Char} {c : Char} :
    ∀ d ∈ lowerChar before c after, Lower d := by
  have hi : Lower (Char.ofNat 0x69) ∧ Lower (Char.ofNat 0x307) := by
    constructor <;> exact ⟨by decide, by decide, by decide +kernel⟩
  have hsigmas : Lower (Char.ofNat 0x3C2) ∧ Lower (Char.ofNat 0x3C3) := by
    constructor <;> exact ⟨by decide, by decide, by decide +kernel⟩
  intro d hd
  unfold lowerChar at hd
  split_ifs at hd with hdotted hsigma hfinal
  · rcases List.mem_cons.mp hd with rfl | hd
    · exact hi.1
    · rw [List.mem_singleton.mp hd]
      exact hi.2
  · rw [List.mem_singleton.mp hd]
    exact hsigmas.1
  · rw [List.mem_singleton.mp hd]
    exact hsigmas.2
  · rw [List.mem_singleton.mp hd]
    exact lower_apply hdotted hsigma

theorem lower_of_lowerChars {before cs : List Char} : ∀ d ∈ lowerChars before cs, Lower d := by
  induction cs generalizing before with
  | nil => simp [lowerChars]
  | cons c cs ih =>
    intro d hd
    rcases List.mem_append.mp hd with hd | hd
    · exact lower_of_lowerChar d hd
    · exact ih d hd

/-- **Lower case** is idempotent. -/
theorem lowercase_lowercase (text : String) : lowercase (lowercase text) = lowercase text := by
  have hchars : (lowercase text).toList = lowerChars [] text.toList := by simp [lowercase]
  rw [lowercase, hchars, lowerChars_of_lower lower_of_lowerChars]
  rfl

end CellFilter.LetterCase
