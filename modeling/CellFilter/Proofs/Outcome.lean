import Mathlib.Data.List.Forall2

/-!
# Computations that may fail

What a successful sequence of steps says about its steps, the errors that a computation may fail
with, and the relation between two computations that fail together or succeed with related results.
-/

namespace CellFilter.Outcome

variable {α β γ δ ε ε' : Type}

/-! ## Successful steps -/

@[simp] theorem ok_bind (a : α) (f : α → Except ε β) : (Except.ok a >>= f) = f a := rfl

@[simp] theorem error_bind (e : ε) (f : α → Except ε β) : (Except.error e >>= f) = .error e := rfl

@[simp] theorem pure_eq_ok (a : α) : (pure a : Except ε α) = .ok a := rfl

@[simp] theorem throw_eq_error (e : ε) : (throw e : Except ε α) = .error e := rfl

@[simp] theorem map_ok (f : α → β) (a : α) : (Except.ok a : Except ε α).map f = .ok (f a) := rfl

@[simp] theorem map_error (f : α → β) (e : ε) : (Except.error e : Except ε α).map f = .error e := rfl

theorem bind_eq_ok {x : Except ε α} {f : α → Except ε β} {b : β} :
    x >>= f = .ok b ↔ ∃ a, x = .ok a ∧ f a = .ok b := by
  cases x with
  | error e => simp
  | ok a => simp

theorem map_eq_ok {x : Except ε α} {f : α → β} {b : β} :
    x.map f = .ok b ↔ ∃ a, x = .ok a ∧ f a = b := by
  cases x with
  | error e => simp
  | ok a => simp

theorem forall₂_right_mem {r : α → β → Prop} {as : List α} {bs : List β}
    (h : List.Forall₂ r as bs) : ∀ b ∈ bs, ∃ a ∈ as, r a b := by
  induction h with
  | nil => simp
  | cons hab _ ih =>
    intro b hb
    rcases List.mem_cons.mp hb with rfl | hb
    · exact ⟨_, List.mem_cons_self, hab⟩
    · obtain ⟨a, ha, hr⟩ := ih b hb
      exact ⟨a, List.mem_cons_of_mem _ ha, hr⟩

theorem forall₂_left_mem {r : α → β → Prop} {as : List α} {bs : List β}
    (h : List.Forall₂ r as bs) : ∀ a ∈ as, ∃ b ∈ bs, r a b :=
  forall₂_right_mem h.flip

theorem forall₂_imp_of_mem {r q : α → β → Prop} {as : List α} {bs : List β}
    (h : List.Forall₂ r as bs) (himp : ∀ a ∈ as, ∀ b ∈ bs, r a b → q a b) :
    List.Forall₂ q as bs := by
  induction h with
  | nil => exact .nil
  | cons hab _ ih =>
    exact .cons (himp _ List.mem_cons_self _ List.mem_cons_self hab)
      (ih fun a ha b hb => himp a (List.mem_cons_of_mem _ ha) b (List.mem_cons_of_mem _ hb))

theorem forall₂_and {r q : α → β → Prop} {as : List α} {bs : List β} (hr : List.Forall₂ r as bs)
    (hq : List.Forall₂ q as bs) : List.Forall₂ (fun a b => r a b ∧ q a b) as bs := by
  induction hr with
  | nil => exact .nil
  | cons hab _ ih =>
    cases hq with
    | cons hab' hq => exact .cons ⟨hab, hab'⟩ (ih hq)

/-- Two lists that come from one list, place by place. -/
theorem forall₂_of_common {r : α → β → Prop} {q : α → γ → Prop} {p : β → γ → Prop} {as : List α}
    {bs : List β} {cs : List γ} (hr : List.Forall₂ r as bs) (hq : List.Forall₂ q as cs)
    (hp : ∀ a ∈ as, ∀ b c, r a b → q a c → p b c) : List.Forall₂ p bs cs := by
  induction hr generalizing cs with
  | nil =>
    cases hq
    exact .nil
  | cons hab _ ih =>
    cases hq with
    | cons hac hrest =>
      exact .cons (hp _ List.mem_cons_self _ _ hab hac)
        (ih hrest fun a ha => hp a (List.mem_cons_of_mem _ ha))

theorem mapM_eq_ok_iff {f : α → Except ε β} {as : List α} {bs : List β} :
    as.mapM f = .ok bs ↔ List.Forall₂ (fun a b => f a = .ok b) as bs := by
  induction as generalizing bs with
  | nil => simp [List.forall₂_nil_left_iff, eq_comm]
  | cons a as ih =>
    rw [List.mapM_cons, bind_eq_ok, List.forall₂_cons_left_iff]
    constructor
    · rintro ⟨b, hb, h⟩
      obtain ⟨others, ho, h⟩ := bind_eq_ok.mp h
      cases h
      exact ⟨b, others, hb, ih.mp ho, rfl⟩
    · rintro ⟨b, others, hb, ho, rfl⟩
      exact ⟨b, hb, bind_eq_ok.mpr ⟨others, ih.mpr ho, rfl⟩⟩

/-- A result at a place comes from the input at that place. -/
theorem getElem?_of_mapM {f : α → Except ε β} {as : List α} {bs : List β}
    (h : as.mapM f = .ok bs) {i : Nat} {b : β} (hb : bs[i]? = some b) :
    ∃ a, as[i]? = some a ∧ f a = .ok b := by
  have hall := mapM_eq_ok_iff.mp h
  clear h
  induction hall generalizing i with
  | nil => cases hb
  | cons ha _ ih =>
    cases i with
    | zero =>
      cases hb
      exact ⟨_, rfl, ha⟩
    | succ i => exact ih hb

theorem exists_forall₂ {r : α → β → Prop} {as : List α} (h : ∀ a ∈ as, ∃ b, r a b) :
    ∃ bs, List.Forall₂ r as bs := by
  induction as with
  | nil => exact ⟨[], .nil⟩
  | cons a as ih =>
    obtain ⟨b, hb⟩ := h a List.mem_cons_self
    obtain ⟨bs, hbs⟩ := ih fun c hc => h c (List.mem_cons_of_mem a hc)
    exact ⟨b :: bs, .cons hb hbs⟩

theorem exists_mapM_eq_ok {f : α → Except ε β} {as : List α} (h : ∀ a ∈ as, ∃ b, f a = .ok b) :
    ∃ bs, as.mapM f = .ok bs := by
  obtain ⟨bs, hbs⟩ := exists_forall₂ h
  exact ⟨bs, mapM_eq_ok_iff.mpr hbs⟩

theorem mapM_congr {m : Type → Type} [Monad m] [LawfulMonad m] {f g : α → m β} {as : List α}
    (h : ∀ a ∈ as, f a = g a) : as.mapM f = as.mapM g := by
  induction as with
  | nil => rfl
  | cons a as ih =>
    rw [List.mapM_cons, List.mapM_cons, h a List.mem_cons_self,
      ih fun b hb => h b (List.mem_cons_of_mem a hb)]

theorem foldlM_concat (f : β → α → Except ε β) (as : List α) (a : α) (b : β) :
    (as ++ [a]).foldlM f b = as.foldlM f b >>= fun c => f c a := by
  rw [List.foldlM_append]
  cases as.foldlM f b with
  | error e => rfl
  | ok c => simp only [ok_bind, List.foldlM_cons, List.foldlM_nil]; cases f c a <;> rfl

/-! ## Errors -/

/-- If the computation fails, then with an error of the property. -/
def FailsOnly (P : ε → Prop) (x : Except ε α) : Prop := ∀ e, x = .error e → P e

namespace FailsOnly

variable {P Q : ε → Prop} {x : Except ε α} {f : α → Except ε β} {e : ε}

theorem ok (a : α) : FailsOnly P (.ok a) := fun _ h => by cases h

theorem error (h : P e) : FailsOnly P (.error e : Except ε α) := by
  intro _ he
  cases he
  exact h

theorem bind (hx : FailsOnly P x) (hf : ∀ a, x = .ok a → FailsOnly P (f a)) :
    FailsOnly P (x >>= f) := by
  cases x with
  | error e => exact error (hx e rfl)
  | ok a => exact hf a rfl

theorem map (hx : FailsOnly P x) (g : α → β) : FailsOnly P (x.map g) := by
  cases x with
  | error e => exact error (hx e rfl)
  | ok a => exact ok (g a)

theorem mapError {g : ε' → ε} (h : ∀ e, P (g e)) (x : Except ε' α) :
    FailsOnly P (x.mapError g) := by
  cases x with
  | error e => exact error (h e)
  | ok a => exact ok a

theorem mono (hx : FailsOnly P x) (h : ∀ e, P e → Q e) : FailsOnly Q x := fun e he => h e (hx e he)

theorem mapM {as : List α} (h : ∀ a ∈ as, FailsOnly P (f a)) : FailsOnly P (as.mapM f) := by
  induction as with
  | nil => exact ok []
  | cons a as ih =>
    rw [List.mapM_cons]
    exact (h a List.mem_cons_self).bind fun b _ =>
      (ih fun c hc => h c (List.mem_cons_of_mem a hc)).bind fun bs _ => ok (b :: bs)

theorem foldlM {f : β → α → Except ε β} {as : List α} (h : ∀ b a, FailsOnly P (f b a)) (b : β) :
    FailsOnly P (as.foldlM f b) := by
  induction as generalizing b with
  | nil => exact ok b
  | cons a as ih =>
    rw [List.foldlM_cons]
    exact (h b a).bind fun c _ => ih c

end FailsOnly

/-! ## Two computations side by side -/

/-- Both fail, or both succeed with related results. -/
def Alike (r : α → β → Prop) : Except ε α → Except ε' β → Prop
  | .ok a, .ok b => r a b
  | .error _, .error _ => True
  | _, _ => False

section Alike

variable {r : α → β → Prop} {q : γ → δ → Prop} {x : Except ε α} {y : Except ε' β}

@[simp] theorem alike_ok {a : α} {b : β} :
    Alike r (.ok a : Except ε α) (.ok b : Except ε' β) ↔ r a b := Iff.rfl

@[simp] theorem alike_error {e : ε} {e' : ε'} :
    Alike r (.error e : Except ε α) (.error e' : Except ε' β) := trivial

theorem Alike.refl (x : Except ε α) : Alike Eq x x := by
  cases x with
  | error e => trivial
  | ok a => rfl

theorem Alike.mono {r' : α → β → Prop} (h : Alike r x y) (hr : ∀ a b, r a b → r' a b) :
    Alike r' x y := by
  cases x <;> cases y <;> first | exact h | exact hr _ _ h

theorem Alike.bind (h : Alike r x y) {f : α → Except ε γ} {g : β → Except ε' δ}
    (hfg : ∀ a b, r a b → Alike q (f a) (g b)) : Alike q (x >>= f) (y >>= g) := by
  cases x with
  | error e => cases y with
    | error e' => trivial
    | ok b => exact h.elim
  | ok a => cases y with
    | error e' => exact h.elim
    | ok b => exact hfg a b h

theorem Alike.map (h : Alike r x y) {f : α → γ} {g : β → δ} (hfg : ∀ a b, r a b → q (f a) (g b)) :
    Alike q (x.map f) (y.map g) :=
  h.bind fun a b hab => hfg a b hab

theorem Alike.mapError {ε₁ ε₂ : Type} (h : Alike r x y) (f : ε → ε₁) (g : ε' → ε₂) :
    Alike r (x.mapError f) (y.mapError g) := by
  cases x <;> cases y <;> exact h

theorem Alike.of_eq {x y : Except ε α} (h : x = y) : Alike Eq x y := h ▸ Alike.refl x

end Alike

end CellFilter.Outcome
