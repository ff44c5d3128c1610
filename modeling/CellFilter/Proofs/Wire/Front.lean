import CellFilter.Proofs.Outcome
import CellFilter.Proofs.Wire.Framing

/-!
# Reads that do not look ahead

What a read takes off the front it takes whatever follows.  So a loop of such reads, run over two
pieces of input one after the other, runs over the first piece and then over the second.

* `TakesFront`: a read that does not look behind the bytes that it takes.
* `Advances.consumeAll_append`: two pieces are read one after the other.
* `consumeAll_keeps`, `consumeAll_fails`: what every step keeps, and what it may fail with.
* `consumeAll_map`: steps seen through a map.
-/

namespace CellFilter

open Outcome

variable {α β γ ε ε' : Type}

/-- Whatever a read succeeds with, it took some bytes off the front for it and takes them whatever
follows. -/
def TakesFront (f : Bytes → Except ε (α × Bytes)) : Prop :=
  ∀ input a rest, f input = .ok (a, rest) →
    ∃ taken, input = taken ++ rest ∧ ∀ more, f (taken ++ more) = .ok (a, more)

namespace TakesFront

variable {f : Bytes → Except ε (α × Bytes)}

theorem pure (a : α) : TakesFront fun input => (Pure.pure (a, input) : Except ε (α × Bytes)) := by
  intro input b rest h
  cases h
  exact ⟨[], rfl, fun _ => rfl⟩

theorem error (e : ε) : TakesFront fun _ => (.error e : Except ε (α × Bytes)) := by
  intro input a rest h
  cases h

theorem bind (hf : TakesFront f) {g : α × Bytes → Except ε (β × Bytes)}
    (hg : ∀ a, TakesFront fun rest => g (a, rest)) : TakesFront fun input => f input >>= g := by
  intro input b rest h
  obtain ⟨⟨a, left⟩, ha, hb⟩ := bind_eq_ok.mp h
  obtain ⟨first, rfl, hfirst⟩ := hf _ _ _ ha
  obtain ⟨second, rfl, hsecond⟩ := hg a _ _ _ hb
  refine ⟨first ++ second, (List.append_assoc _ _ _).symm, fun more => ?_⟩
  simp only [List.append_assoc, hfirst, ok_bind]
  exact hsecond more

/-- A step in between that reads nothing. -/
theorem lift (x : Except ε γ) {g : γ → Bytes → Except ε (α × Bytes)}
    (hg : ∀ c, TakesFront (g c)) : TakesFront fun input => x >>= fun c => g c input := by
  cases x with
  | error e => exact error e
  | ok c => exact hg c

theorem mapError (hf : TakesFront f) (g : ε → ε') :
    TakesFront fun input => (f input).mapError g := by
  intro input a rest h
  dsimp only at h ⊢
  cases hinput : f input with
  | error e => rw [hinput] at h; cases h
  | ok r =>
    rw [hinput] at h
    cases h
    obtain ⟨taken, rfl, htaken⟩ := hf _ _ _ hinput
    exact ⟨taken, rfl, fun more => by rw [htaken]; rfl⟩

end TakesFront

variable {σ : Type} {step : σ → Bytes → Except ε (σ × Bytes)} {s t : σ} {a b : Bytes}

/-- Steps that take bytes off the front, and at least one of them. -/
structure Advances (step : σ → Bytes → Except ε (σ × Bytes)) : Prop where
  front : ∀ s, TakesFront (step s)
  nonempty : ∀ s r, step s [] ≠ .ok r

namespace Advances

theorem exists_taken (h : Advances step) {left : Bytes} (hstep : step s a = .ok (t, left)) :
    ∃ taken, a = taken ++ left ∧ taken ≠ [] ∧ ∀ more, step s (taken ++ more) = .ok (t, more) := by
  obtain ⟨taken, ha, htaken⟩ := h.front s a t left hstep
  refine ⟨taken, ha, ?_, htaken⟩
  rintro rfl
  exact h.nonempty s _ (htaken [])

theorem length_lt (h : Advances step) {left : Bytes} (hstep : step s a = .ok (t, left)) :
    left.length < a.length := by
  obtain ⟨taken, rfl, hne, -⟩ := h.exists_taken hstep
  have hpos := List.length_pos_iff.mpr hne
  rw [List.length_append]
  omega

/-- So many steps as there are bytes are enough. -/
theorem consume_congr (h : Advances step) : ∀ (fuel fuel' : Nat) (s : σ) (input : Bytes),
    input.length ≤ fuel → input.length ≤ fuel' →
      consume step fuel s input = consume step fuel' s input
  | fuel, fuel', s, [], _, _ => by rw [consume, consume]
  | 0, _, s, x :: input, hlen, _ => by simp at hlen
  | _ + 1, 0, s, x :: input, _, hlen => by simp at hlen
  | fuel + 1, fuel' + 1, s, x :: input, hlen, hlen' => by
    rw [consume, consume]
    cases hstep : step s (x :: input) with
    | error e => rfl
    | ok r =>
      have hless : r.2.length < (x :: input).length := h.length_lt (t := r.1) hstep
      rw [List.length_cons] at hless hlen hlen'
      exact h.consume_congr fuel fuel' r.1 r.2 (by omega) (by omega)

theorem consumeAll_of_step (h : Advances step) {left : Bytes} (hstep : step s a = .ok (t, left)) :
    consumeAll step s a = consumeAll step t left := by
  have hless := h.length_lt hstep
  cases a with
  | nil => exact absurd hstep (h.nonempty s _)
  | cons x a =>
    rw [consumeAll, List.length_cons, consume, hstep, ok_bind]
    exact h.consume_congr _ _ t left (by rw [List.length_cons] at hless; omega) le_rfl

/-- **Two pieces** are read one after the other. -/
theorem consumeAll_append (h : Advances step) (ha : consumeAll step s a = .ok t) :
    consumeAll step s (a ++ b) = consumeAll step t b := by
  induction hlen : a.length using Nat.strong_induction_on generalizing a s with
  | _ len ih =>
    cases a with
    | nil =>
      cases ha
      rfl
    | cons x a =>
      have hrun := ha
      rw [consumeAll, List.length_cons, consume] at hrun
      obtain ⟨⟨u, left⟩, hstep, -⟩ := bind_eq_ok.mp hrun
      obtain ⟨taken, hsplit, -, htaken⟩ := h.exists_taken hstep
      rw [h.consumeAll_of_step hstep] at ha
      have hmore := htaken (left ++ b)
      rw [hsplit, List.append_assoc, h.consumeAll_of_step hmore]
      exact ih _ (hlen ▸ h.length_lt hstep) ha rfl

end Advances

/-- What every step keeps. -/
theorem consumeAll_keeps {P : σ → Prop} (hstep : ∀ s input r, P s → step s input = .ok r → P r.1)
    (hs : P s) (ha : consumeAll step s a = .ok t) : P t := by
  have hfuel : ∀ (fuel : Nat) (s : σ) (input : Bytes), P s → consume step fuel s input = .ok t →
      P t := by
    intro fuel
    induction fuel with
    | zero =>
      intro s input hs h
      cases input <;> cases h <;> exact hs
    | succ fuel ih =>
      intro s input hs h
      cases input with
      | nil => cases h; exact hs
      | cons x input =>
        rw [consume] at h
        obtain ⟨r, hr, h⟩ := bind_eq_ok.mp h
        exact ih r.1 r.2 (hstep s _ r hs hr) h
  exact hfuel _ s a hs ha

/-- The errors of a loop are those of its steps. -/
theorem consumeAll_fails {P : ε → Prop} (hstep : ∀ s input, FailsOnly P (step s input)) (s : σ)
    (a : Bytes) : FailsOnly P (consumeAll step s a) := by
  have hfuel : ∀ (fuel : Nat) (s : σ) (input : Bytes), FailsOnly P (consume step fuel s input) := by
    intro fuel
    induction fuel with
    | zero =>
      intro s input
      cases input <;> exact .ok s
    | succ fuel ih =>
      intro s input
      cases input with
      | nil => exact .ok s
      | cons x input => exact (hstep s _).bind fun r _ => ih r.1 r.2
  exact hfuel _ s a

/-- Steps that do the same to two states, one of them seen through a map. -/
theorem consumeAll_map {τ : Type} {step' : τ → Bytes → Except ε (τ × Bytes)} {P : σ → Prop}
    {f : σ → τ} (hkeeps : ∀ s input r, P s → step s input = .ok r → P r.1)
    (hstep : ∀ s input, P s → step' (f s) input = (step s input).map fun r => (f r.1, r.2))
    (hs : P s) (a : Bytes) : consumeAll step' (f s) a = (consumeAll step s a).map f := by
  have hfuel : ∀ (fuel : Nat) (s : σ) (input : Bytes), P s →
      consume step' fuel (f s) input = (consume step fuel s input).map f := by
    intro fuel
    induction fuel with
    | zero =>
      intro s input _
      cases input <;> rfl
    | succ fuel ih =>
      intro s input hs
      cases input with
      | nil => rfl
      | cons x input =>
        rw [consume, consume, hstep s _ hs]
        cases hr : step s (x :: input) with
        | error e => rfl
        | ok r => exact ih r.1 r.2 (hkeeps s _ r hs hr)
  exact hfuel _ s a hs

/-! ## Keys and contents -/

theorem Varint.decodeWithin_append : ∀ (limit : Nat) (input : Bytes) (n : Nat) (rest : Bytes),
    decodeWithin limit input = some (n, rest) →
      ∃ taken, input = taken ++ rest ∧ ∀ more, decodeWithin limit (taken ++ more) = some (n, more)
  | 0, _, _, _, h => by cases h
  | _ + 1, [], _, _, h => by cases h
  | limit + 1, x :: input, n, rest, h => by
    rw [decodeWithin] at h
    by_cases hlast : x < 128
    · rw [if_pos hlast] at h
      by_cases hover : limit = 0 ∧ 2 ≤ x
      · rw [if_pos hover] at h
        cases h
      · rw [if_neg hover] at h
        cases h
        refine ⟨[x], rfl, fun more => ?_⟩
        rw [List.singleton_append, decodeWithin, if_pos hlast, if_neg hover]
    · rw [if_neg hlast] at h
      obtain ⟨⟨m, tail⟩, htail, h⟩ := Option.bind_eq_some_iff.mp h
      cases h
      obtain ⟨taken, rfl, htaken⟩ := decodeWithin_append limit input m rest htail
      refine ⟨x :: taken, rfl, fun more => ?_⟩
      rw [List.cons_append, decodeWithin, if_neg hlast, htaken]
      rfl

theorem FieldKey.decode_takesFront : TakesFront FieldKey.decode := by
  intro input key rest h
  unfold FieldKey.decode at h
  cases hvarint : Varint.decode input with
  | none => rw [hvarint] at h; cases h
  | some r =>
    obtain ⟨n, left⟩ := r
    rw [hvarint] at h
    obtain ⟨key', hkey, heq⟩ := map_eq_ok.mp h
    cases heq
    obtain ⟨taken, rfl, htaken⟩ := Varint.decodeWithin_append 10 _ _ _ hvarint
    refine ⟨taken, rfl, fun more => ?_⟩
    rw [FieldKey.decode, Varint.decode, htaken]
    simp only [hkey]
    rfl

end CellFilter
