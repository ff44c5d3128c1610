import CellFilter.Comparator
import CellFilter.Proofs.Text.Lowercase

/-!
# Containment whatever the case

A substring comparator puts its needle into lower case alone and the cell into lower case as a
whole.  Every letter but the capital sigma has the same form in both, so that the needle is found
wherever its sigmas are final in the cell just if they are final in the needle.  Which sigmas are so
in every cell can be read off the needle.

* `lowerBetween`: lower case of a piece of a text; `lowerBetween_eq_iff`: two such forms of one
  piece.
* `Settled`: the letters of the needle around a sigma tell whether it is final.
* `ofSubstring_contained`: **which needles are found** wherever they stand.
-/

namespace CellFilter.LetterCase

/-- The letter whose lower-case form depends on what stands around it. -/
def capitalSigma : Char := Char.ofNat 0x3A3

/-- Whether a sigma between two texts, the one before it reversed, ends a word. -/
def isFinal (before after : List Char) : Bool := startsCased before && !startsCased after

/-- Lower case of a piece of a text, between the (reversed) text before it and the text after. -/
def lowerBetween (before : List Char) : (piece after : List Char) → List Char
  | [], _ => []
  | c :: piece, after =>
    lowerChar before c (piece ++ after) ++ lowerBetween (c :: before) piece after

theorem lowerChars_append (before piece after : List Char) : lowerChars before (piece ++ after) =
    lowerBetween before piece after ++ lowerChars (piece.reverse ++ before) after := by
  induction piece generalizing before with
  | nil => rfl
  | cons c piece ih =>
    rw [List.cons_append, lowerChars, lowerBetween, ih, List.reverse_cons, List.append_assoc,
      List.append_assoc]
    rfl

theorem lowerBetween_nil (before piece : List Char) :
    lowerBetween before piece [] = lowerChars before piece := by
  have hall := lowerChars_append before piece []
  simpa [lowerChars] using hall.symm

/-! ## One piece in two places -/

theorem length_lowerChar (before after before' after' : List Char) (c : Char) :
    (lowerChar before c after).length = (lowerChar before' c after').length := by
  unfold lowerChar
  split_ifs <;> rfl

theorem length_lowerBetween (before after before' after' piece : List Char) :
    (lowerBetween before piece after).length = (lowerBetween before' piece after').length := by
  induction piece generalizing before before' with
  | nil => rfl
  | cons c piece ih =>
    rw [lowerBetween, lowerBetween, List.length_append, List.length_append, ih,
      length_lowerChar before _ before' (piece ++ after')]

theorem eq_capitalSigma {c : Char} (h : c.toNat = 0x3A3) : c = capitalSigma := by
  rw [← Char.ofNat_toNat c, h]
  rfl

/-- The form of a letter depends on its place if it is a capital sigma. -/
theorem lowerChar_eq_iff {before after before' after' : List Char} {c : Char} :
    lowerChar before c after = lowerChar before' c after' ↔
      (c = capitalSigma → isFinal before after = isFinal before' after') := by
  by_cases hsigma : c = capitalSigma
  · subst hsigma
    have hform : ∀ front back, lowerChar front capitalSigma back =
        if isFinal front back then [Char.ofNat 0x3C2] else [Char.ofNat 0x3C3] := fun _ _ => rfl
    rw [hform, hform]
    cases isFinal before after <;> cases isFinal before' after' <;> decide
  · have hcode : c.toNat ≠ 0x3A3 := fun h => hsigma (eq_capitalSigma h)
    simp [lowerChar, hcode, hsigma]

/-- **Two forms of a piece** are the same just if its sigmas are final in the same places. -/
theorem lowerBetween_eq_iff {before after before' after' piece : List Char} :
    lowerBetween before piece after = lowerBetween before' piece after' ↔
      ∀ front back, piece = front ++ capitalSigma :: back →
        isFinal (front.reverse ++ before) (back ++ after) =
          isFinal (front.reverse ++ before') (back ++ after') := by
  induction piece generalizing before before' with
  | nil => simp [lowerBetween]
  | cons c piece ih =>
    have hparts :
        lowerBetween before (c :: piece) after = lowerBetween before' (c :: piece) after' ↔
        lowerChar before c (piece ++ after) = lowerChar before' c (piece ++ after') ∧
          lowerBetween (c :: before) piece after = lowerBetween (c :: before') piece after' :=
      ⟨fun h => List.append_inj h (length_lowerChar _ _ _ _ c), fun h => by
        rw [lowerBetween, lowerBetween, h.1, h.2]⟩
    rw [hparts, lowerChar_eq_iff, ih]
    constructor
    · rintro ⟨hfirst, hrest⟩ front back hsplit
      cases front with
      | nil =>
        obtain ⟨rfl, rfl⟩ := List.cons.inj hsplit
        exact hfirst rfl
      | cons d front =>
        obtain ⟨rfl, rfl⟩ := List.cons.inj hsplit
        simpa using hrest front back rfl
    · intro h
      refine ⟨fun hc => h [] piece (by rw [hc]; rfl), fun front back hsplit => ?_⟩
      simpa using h (c :: front) back (by rw [hsplit]; rfl)

/-! ## What the letters around a sigma tell -/

/-- Whether a text has a character that is not case-ignorable. -/
def Tells (cs : List Char) : Prop := ∃ c ∈ cs, caseIgnorable.contains c.toNat = false

/-- The letters around a sigma tell whether it is final, whatever stands around them: a letter with
case follows it, or it stands behind a character without case, or there is a character that counts
on both sides. -/
def Settled (before after : List Char) : Prop :=
  startsCased after = true ∨ Tells before ∧ (startsCased before = false ∨ Tells after)

theorem startsCased_append {cs : List Char} (more : List Char) :
    (Tells cs → startsCased (cs ++ more) = startsCased cs) ∧
      (¬ Tells cs → startsCased (cs ++ more) = startsCased more) := by
  induction cs with
  | nil => simp [Tells]
  | cons c cs ih =>
    by_cases hc : caseIgnorable.contains c.toNat = true
    · have htells : Tells (c :: cs) ↔ Tells cs := by simp [Tells, hc]
      have hskip : ∀ l, startsCased (c :: l) = startsCased l := fun l => by
        simp [startsCased, hc]
      rw [htells, List.cons_append, hskip, hskip]
      exact ih
    · have htells : Tells (c :: cs) := ⟨c, List.mem_cons_self, by simpa using hc⟩
      have hstop : ∀ l, startsCased (c :: l) = cased.contains c.toNat := fun l => by
        simp [startsCased, hc]
      exact ⟨fun _ => by rw [List.cons_append, hstop, hstop], fun h => absurd htells h⟩

theorem tells_of_startsCased {cs : List Char} (h : startsCased cs = true) : Tells cs := by
  by_contra hnone
  have hsame := (@startsCased_append cs []).2 hnone
  rw [List.append_nil, h] at hsame
  cases hsame

/-- A settled sigma is final in every place or in none. -/
theorem Settled.isFinal_append {before after : List Char} (h : Settled before after)
    (front back : List Char) :
    isFinal (before ++ front) (after ++ back) = isFinal before after := by
  unfold isFinal
  rcases h with hcased | ⟨hbefore, hnone | hafter⟩
  · rw [(startsCased_append back).1 (tells_of_startsCased hcased), hcased]
    simp
  · rw [(startsCased_append front).1 hbefore, hnone]
    simp
  · rw [(startsCased_append front).1 hbefore, (startsCased_append back).1 hafter]

/-- A sigma that is not settled is final or not according to one letter in front of the text or
behind it. -/
theorem exists_context {before after : List Char} (h : ¬ Settled before after) :
    (∀ x : Char, startsCased [x] = true → isFinal before (after ++ [x]) ≠ isFinal before after) ∨
      ∀ x : Char, startsCased [x] = true →
        isFinal (before ++ [x]) after ≠ isFinal before after := by
  simp only [Settled, not_or, not_and, Bool.not_eq_true, Bool.not_eq_false] at h
  obtain ⟨hafter, hbefore⟩ := h
  by_cases htells : Tells before
  · -- the text behind is empty of letters that count
    obtain ⟨hcased, hsilent⟩ := hbefore htells
    refine .inl fun x hx => ?_
    unfold isFinal
    rw [(startsCased_append [x]).2 hsilent, hx, hcased, hafter]
    decide
  · have hnone : startsCased before = false := by
      by_contra hcased
      exact htells (tells_of_startsCased (by simpa using hcased))
    refine .inr fun x hx => ?_
    unfold isFinal
    rw [(startsCased_append [x]).2 htells, hx, hnone, hafter]
    decide

/-! ## Forms of a needle in cells -/

/-- The lower case of a text around a piece. -/
theorem lowerChars_around (a s b : List Char) : lowerChars [] (a ++ (s ++ b)) =
    lowerBetween [] a (s ++ b) ++
      (lowerBetween a.reverse s b ++ lowerChars (s.reverse ++ a.reverse) b) := by
  rw [lowerChars_append, List.append_nil, lowerChars_append]

/-- A letter in lower case that counts for a sigma next to it. -/
structure Plain (c : Char) : Prop where
  lower : Lower c
  cased : startsCased [c] = true

theorem exists_plain_ne (o : Option Char) : ∃ x, Plain x ∧ o ≠ some x := by
  have hplain : Plain (Char.ofNat 97) ∧ Plain (Char.ofNat 98) := by
    constructor <;> exact ⟨⟨by decide, by decide, by decide +kernel⟩, by decide +kernel⟩
  by_cases ho : o = some (Char.ofNat 97)
  · exact ⟨_, hplain.2, by rw [ho]; decide⟩
  · exact ⟨_, hplain.1, ho⟩

section

variable {s : List Char}

theorem lowerChars_ne_nil (hs : s ≠ []) : lowerChars [] s ≠ [] := by
  cases s with
  | nil => exact absurd rfl hs
  | cons c s =>
    have hform : lowerChar [] c s ≠ [] := by
      unfold lowerChar
      split_ifs <;> exact List.cons_ne_nil _ _
    rw [lowerChars]
    exact List.append_ne_nil_of_left_ne_nil hform _

/-- A needle that has another form before a letter is not found there, if its own form does not end
on the letter. -/
theorem not_infix_before {x : Char} (hx : Lower x) (hs : s ≠ [])
    (hlast : (lowerChars [] s).getLast? ≠ some x)
    (hform : lowerBetween [] s [x] ≠ lowerChars [] s) :
    ¬ lowerChars [] s <:+: lowerChars [] (s ++ [x]) := by
  rw [lowerChars_append, lowerChars, lowerChar_of_lower hx, lowerChars, List.append_nil]
  rintro ⟨front, back, hsplit⟩
  have hlen := length_lowerBetween [] [x] [] [] s
  rw [lowerBetween_nil] at hlen
  have htotal := congrArg List.length hsplit
  simp only [List.length_append, List.length_singleton] at htotal
  rcases List.eq_nil_or_concat' back with rfl | ⟨back, y, rfl⟩
  · -- at the end of the cell
    have hend := congrArg List.getLast? hsplit
    rw [List.append_nil, List.getLast?_append_of_ne_nil _ (lowerChars_ne_nil hs),
      List.getLast?_concat] at hend
    exact hlast hend
  · have hnone : front = [] ∧ back = [] := by
      simp only [List.length_append, List.length_singleton] at htotal
      exact ⟨List.length_eq_zero_iff.mp (by omega), List.length_eq_zero_iff.mp (by omega)⟩
    obtain ⟨rfl, rfl⟩ := hnone
    exact hform (List.append_inj hsplit hlen.symm).1.symm

/-- A needle that has another form behind a letter is not found there, if its own form does not
start with the letter. -/
theorem not_infix_behind {x : Char} (hx : Lower x) (hs : s ≠ [])
    (hfirst : (lowerChars [] s).head? ≠ some x) (hform : lowerChars [x] s ≠ lowerChars [] s) :
    ¬ lowerChars [] s <:+: lowerChars [] (x :: s) := by
  rw [lowerChars.eq_2, lowerChar_of_lower hx]
  rintro ⟨front, back, hsplit⟩
  have hlen := length_lowerBetween [x] [] [] [] s
  rw [lowerBetween_nil, lowerBetween_nil] at hlen
  have htotal := congrArg List.length hsplit
  simp only [List.length_append, List.length_singleton] at htotal
  cases front with
  | nil =>
    have hstart := congrArg List.head? hsplit
    rw [List.nil_append, List.head?_append_of_ne_nil _ (lowerChars_ne_nil hs)] at hstart
    exact hfirst hstart
  | cons y front =>
    have hnone : front = [] ∧ back = [] := by
      rw [List.length_cons] at htotal
      exact ⟨List.length_eq_zero_iff.mp (by omega), List.length_eq_zero_iff.mp (by omega)⟩
    obtain ⟨rfl, rfl⟩ := hnone
    rw [List.append_nil] at hsplit
    exact hform (List.cons.inj hsplit).2.symm

end

end CellFilter.LetterCase

namespace CellFilter.Comparator

open LetterCase

theorem isInfix_iff {needle text : List Char} : isInfix needle text = true ↔ needle <:+: text := by
  induction text with
  | nil => simp [isInfix]
  | cons c text ih =>
    rw [isInfix, Bool.or_eq_true, ih, List.isPrefixOf_iff_prefix, List.infix_cons_iff]

/-- A needle is found where its lower case is. -/
theorem compareTo_ofSubstring {needle cell : String} :
    (ofSubstring needle).compareTo (Utf8.encode cell) = 0 ↔
      lowerChars [] needle.toList <:+: lowerChars [] cell.toList := by
  have hcell : Utf8.decodeLossy (Utf8.encode cell) = cell := by
    rw [Utf8.decodeLossy, Utf8.decode?_encode]
  have hlower : ∀ text : String, (lowercase text).toList = lowerChars [] text.toList :=
    fun text => by simp [lowercase]
  rw [ofSubstring, compareTo_substring, hcell, hlower, hlower, ← isInfix_iff]
  split_ifs with h <;> simp [h]

/-- **Which needles are found.**  A needle is found between two texts if each of its capital sigmas
is final there just if it is final in the needle.  It is found between all texts just if the needle
tells of each whether it is final. -/
theorem ofSubstring_contained (needle : String) :
    (∀ a b : String, (∀ front back, needle.toList = front ++ capitalSigma :: back →
      isFinal (front.reverse ++ a.toList.reverse) (back ++ b.toList) = isFinal front.reverse back) →
        (ofSubstring needle).compareTo (Utf8.encode (a ++ needle ++ b)) = 0) ∧
    ((∀ a b : String, (ofSubstring needle).compareTo (Utf8.encode (a ++ needle ++ b)) = 0) ↔
      ∀ front back, needle.toList = front ++ capitalSigma :: back →
        Settled front.reverse back) := by
  have hfound : ∀ a b : String, (∀ front back, needle.toList = front ++ capitalSigma :: back →
      isFinal (front.reverse ++ a.toList.reverse) (back ++ b.toList) = isFinal front.reverse back) →
        (ofSubstring needle).compareTo (Utf8.encode (a ++ needle ++ b)) = 0 := by
    intro a b hagree
    have hform : lowerBetween a.toList.reverse needle.toList b.toList =
        lowerChars [] needle.toList := by
      rw [← lowerBetween_nil, lowerBetween_eq_iff]
      simpa using hagree
    rw [compareTo_ofSubstring, String.toList_append, String.toList_append, List.append_assoc,
      lowerChars_around, hform]
    exact ⟨_, _, List.append_assoc _ _ _⟩
  refine ⟨hfound, fun hall front back hsplit => ?_, fun hsettled a b =>
    hfound a b fun front back hsplit => (hsettled front back hsplit).isFinal_append _ _⟩
  by_contra hopen
  have hne : needle.toList ≠ [] := by simp [hsplit]
  rcases exists_context hopen with hbehind | hfront
  · obtain ⟨x, hx, hlast⟩ := exists_plain_ne (lowerChars [] needle.toList).getLast?
    have hfind := compareTo_ofSubstring.mp (hall "" (String.ofList [x]))
    refine not_infix_before hx.lower hne hlast (fun hform => ?_) (by simpa using hfind)
    rw [← lowerBetween_nil, lowerBetween_eq_iff] at hform
    exact hbehind x hx.cased (by simpa using hform front back hsplit)
  · obtain ⟨x, hx, hfirst⟩ := exists_plain_ne (lowerChars [] needle.toList).head?
    have hfind := compareTo_ofSubstring.mp (hall (String.ofList [x]) "")
    refine not_infix_behind hx.lower hne hfirst (fun hform => ?_) (by simpa using hfind)
    rw [← lowerBetween_nil, ← lowerBetween_nil, lowerBetween_eq_iff] at hform
    exact hfront x hx.cased (by simpa using hform front back hsplit)

/-- A word that ends on a sigma, before another word, and a sigma before a letter, inside of a
word. -/
theorem ofSubstring_contained_words :
    (∀ front back, "ΑΣ".toList = front ++ capitalSigma :: back →
      isFinal (front.reverse ++ "".toList.reverse) (back ++ " Α".toList) =
        isFinal front.reverse back) ∧
    (ofSubstring "ΑΣ").compareTo (Utf8.encode ("" ++ "ΑΣ" ++ " Α")) = 0 ∧
    (∀ front back, "ΣΑ".toList = front ++ capitalSigma :: back → Settled front.reverse back) ∧
    (ofSubstring "ΣΑ").compareTo (Utf8.encode ("Α" ++ "ΣΑ" ++ "Σ")) = 0 := by
  have hagree : ∀ front back, "ΑΣ".toList = front ++ capitalSigma :: back →
      isFinal (front.reverse ++ "".toList.reverse) (back ++ " Α".toList) =
        isFinal front.reverse back := by
    have hform : lowerBetween [] "ΑΣ".toList " Α".toList = lowerBetween [] "ΑΣ".toList [] := by
      decide +kernel
    simpa using lowerBetween_eq_iff.mp hform
  have hsettled : ∀ front back, "ΣΑ".toList = front ++ capitalSigma :: back →
      Settled front.reverse back := by
    have hletters : "ΣΑ".toList = [capitalSigma, Char.ofNat 0x391] := by decide
    intro front back hsplit
    rw [hletters] at hsplit
    rcases front with _ | ⟨c, _ | ⟨d, front⟩⟩
    · obtain ⟨-, rfl⟩ := List.cons.inj hsplit
      exact .inl (by decide +kernel)
    · exact absurd (List.cons.inj (List.cons.inj hsplit).2).1 (by decide)
    · simp at hsplit
  exact ⟨hagree, (ofSubstring_contained "ΑΣ").1 "" " Α" hagree, hsettled,
    (ofSubstring_contained "ΣΑ").2.mpr hsettled "Α" "Σ"⟩

/-- A word that ends on a sigma, inside of a longer word. -/
theorem ofSubstring_not_contained :
    (ofSubstring "ΑΣ").compareTo (Utf8.encode ("" ++ "ΑΣ" ++ "Α")) = 1 := by
  decide +kernel

end CellFilter.Comparator
