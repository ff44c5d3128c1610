import CellFilter.Proofs.Message.Merging

/-!
# Equality of values

Values are equal as far as they hold the same, and their floating-point numbers are compared as
numbers: both zeros are equal, and a NaN differs from everything.  So the equality of values is
symmetric, and a value is equal to itself just if there is no NaN at any depth in it.

* `Message.valueEq_comm`: equality is symmetric.
* `Message.valueEq_self`: what is equal to itself.
* `fieldsEq_iff`: fields in order are equal if each of them has its partner on the other side.
-/

namespace CellFilter

/-! ## Numbers -/

theorem arithmeticEq_comm (f : BinaryFormat) (a b : Nat) :
    arithmeticEq f a b = arithmeticEq f b a := by
  unfold arithmeticEq
  cases f.magnitude a <;> cases f.magnitude b <;> simp only [BEq.comm, Bool.and_comm]

/-- A word is equal to itself as a number unless it is a NaN. -/
theorem arithmeticEq_self (f : BinaryFormat) (a : Nat) :
    arithmeticEq f a a = (f.magnitude a != .nan) := by
  unfold arithmeticEq
  cases f.magnitude a <;> simp

namespace Atom

/-- Whether a value is a NaN. -/
def isNaN : Atom → Bool
  | .f32 x => x.magnitude == .nan
  | .f64 x => x.magnitude == .nan
  | _ => false

theorem valueEq_comm (a b : Atom) : a.valueEq b = b.valueEq a := by
  cases a <;> cases b <;>
    simp only [valueEq, Binary32.numberEq, Binary64.numberEq, arithmeticEq_comm, BEq.comm]

theorem valueEq_self (a : Atom) : a.valueEq a = !a.isNaN := by
  cases a with
  | f32 x => exact arithmeticEq_self .single x.bits.toNat
  | f64 x => exact arithmeticEq_self .double x.bits.toNat
  | _ => simp only [valueEq, isNaN, beq_self_eq_true, Bool.not_false]

end Atom

/-! ## Both ways round -/

mutual

theorem Value.valueEq_comm : ∀ v w : Value, v.valueEq w = w.valueEq v
  | .atom a, .atom b => by simp only [Value.valueEq, a.valueEq_comm b]
  | .message m, .message n => by simp only [Value.valueEq, Message.valueEq_comm m n]
  | .list vs, .list ws => by simp only [Value.valueEq, listEq_comm vs ws]
  | .atom _, .message _ | .atom _, .list _ | .message _, .atom _ | .message _, .list _
  | .list _, .atom _ | .list _, .message _ => by simp only [Value.valueEq]

/-- Equality of messages is symmetric. -/
theorem Message.valueEq_comm : ∀ m n : Message, m.valueEq n = n.valueEq m
  | ⟨s, fs⟩, ⟨t, gs⟩ => by simp only [Message.valueEq, fieldsEq_comm fs gs, BEq.comm]

theorem listEq_comm : ∀ vs ws : List Value, listEq vs ws = listEq ws vs
  | [], [] => rfl
  | [], _ :: _ => by simp only [listEq]
  | _ :: _, [] => by simp only [listEq]
  | v :: vs, w :: ws => by simp only [listEq, v.valueEq_comm w, listEq_comm vs ws]

theorem fieldsEq_comm : ∀ fs gs : List (Nat × Value), fieldsEq fs gs = fieldsEq gs fs
  | [], [] => rfl
  | [], _ :: _ => by simp only [fieldsEq]
  | _ :: _, [] => by simp only [fieldsEq]
  | (n, v) :: fs, (m, w) :: gs => by
    simp only [fieldsEq, v.valueEq_comm w, fieldsEq_comm fs gs, BEq.comm]

end

/-! ## Equal to itself -/

mutual

/-- The values at any depth that hold no others. -/
def Value.atoms : Value → List Atom
  | .atom a => [a]
  | .message m => m.atoms
  | .list values => atomsOfAll values

/-- The values at any depth in a message. -/
def Message.atoms : Message → List Atom
  | ⟨_, fields⟩ => atomsOfFields fields

/-- The values at any depth in values. -/
def atomsOfAll : List Value → List Atom
  | [] => []
  | v :: rest => v.atoms ++ atomsOfAll rest

/-- The values at any depth in fields. -/
def atomsOfFields : List (Nat × Value) → List Atom
  | [] => []
  | (_, v) :: rest => v.atoms ++ atomsOfFields rest

end

/-- Whether there is no NaN at any depth in a message. -/
def Message.isNaNFree (m : Message) : Bool := m.atoms.all fun a => !a.isNaN

mutual

theorem Value.valueEq_self : ∀ v : Value, v.valueEq v = v.atoms.all fun a => !a.isNaN
  | .atom a => by simp [Value.valueEq, Value.atoms, a.valueEq_self]
  | .message m => by simp only [Value.valueEq, Value.atoms, Message.valueEq_self m, Message.isNaNFree]
  | .list vs => by simp only [Value.valueEq, Value.atoms, listEq_self vs]

/-- **A message is equal to itself** just if it holds no NaN. -/
theorem Message.valueEq_self : ∀ m : Message, m.valueEq m = m.isNaNFree
  | ⟨s, fs⟩ => by
    simp only [Message.valueEq, Message.isNaNFree, Message.atoms, fieldsEq_self fs,
      beq_self_eq_true, Bool.true_and]

theorem listEq_self : ∀ vs : List Value, listEq vs vs = (atomsOfAll vs).all fun a => !a.isNaN
  | [] => by simp only [listEq, atomsOfAll, List.all_nil]
  | v :: vs => by
    simp only [listEq, atomsOfAll, List.all_append, v.valueEq_self, listEq_self vs]

theorem fieldsEq_self : ∀ fs : List (Nat × Value),
    fieldsEq fs fs = (atomsOfFields fs).all fun a => !a.isNaN
  | [] => by simp only [fieldsEq, atomsOfFields, List.all_nil]
  | (n, v) :: fs => by
    simp only [fieldsEq, atomsOfFields, List.all_append, v.valueEq_self, fieldsEq_self fs,
      beq_self_eq_true, Bool.true_and]

end

/-! ## Field by field -/

variable {fs : List (Nat × Value)} {n : Nat} {v : Value}

theorem Ascending.lt_of_mem (h : Ascending ((n, v) :: fs)) {e : Nat × Value} (he : e ∈ fs) :
    n < e.1 :=
  (List.pairwise_cons.mp h).1 e he

theorem Ascending.tail (h : Ascending ((n, v) :: fs)) : Ascending fs := (List.pairwise_cons.mp h).2

/-- The first number is the least one. -/
theorem Ascending.le_of_mem (h : Ascending ((n, v) :: fs)) {e : Nat × Value}
    (he : e ∈ (n, v) :: fs) : n ≤ e.1 := by
  rcases List.mem_cons.mp he with rfl | he
  · exact Nat.le_refl _
  · exact Nat.le_of_lt (h.lt_of_mem he)

/-- **Fields in order** are equal if every field has an equal one of its number on the other side and
there is no other number there. -/
theorem fieldsEq_iff : ∀ {fs gs : List (Nat × Value)}, Ascending fs → Ascending gs →
    (fieldsEq fs gs = true ↔ (∀ e ∈ fs, ∃ w, (e.1, w) ∈ gs ∧ w.valueEq e.2 = true) ∧
      ∀ k ∈ gs, ∃ v, (k.1, v) ∈ fs)
  | [], [], _, _ => by simp [fieldsEq]
  | [], k :: gs, _, _ => by
    simp only [fieldsEq, Bool.false_eq_true, false_iff, not_and, not_forall]
    exact fun _ => ⟨k, List.mem_cons_self, by simp⟩
  | (n, v) :: fs, [], _, _ => by
    simp only [fieldsEq, Bool.false_eq_true, false_iff, not_and]
    intro h
    obtain ⟨w, hw, -⟩ := h (n, v) List.mem_cons_self
    cases hw
  | (n, v) :: fs, (m, w) :: gs, hf, hg => by
    rw [fieldsEq, Bool.and_eq_true, Bool.and_eq_true, beq_iff_eq, and_assoc,
      fieldsEq_iff hf.tail hg.tail]
    constructor
    · rintro ⟨rfl, hvw, hforth, hback⟩
      refine ⟨fun e he => ?_, fun k hk => ?_⟩
      · rcases List.mem_cons.mp he with rfl | he
        · exact ⟨w, List.mem_cons_self, (w.valueEq_comm v).trans hvw⟩
        · obtain ⟨u, hu, heq⟩ := hforth e he
          exact ⟨u, List.mem_cons_of_mem _ hu, heq⟩
      · rcases List.mem_cons.mp hk with rfl | hk
        · exact ⟨v, List.mem_cons_self⟩
        · obtain ⟨u, hu⟩ := hback k hk
          exact ⟨u, List.mem_cons_of_mem _ hu⟩
    · rintro ⟨hforth, hback⟩
      obtain ⟨u, hu, hequal⟩ := hforth (n, v) List.mem_cons_self
      obtain ⟨u', hu'⟩ := hback (m, w) List.mem_cons_self
      have hnm : n = m := Nat.le_antisymm (hf.le_of_mem hu') (hg.le_of_mem hu)
      subst hnm
      -- a number that stands behind the first one has its partner there too
      have hu : u = w := by
        rcases List.mem_cons.mp hu with hu | hu
        · exact (Prod.mk.inj hu).2
        · exact absurd (hg.lt_of_mem hu) (Nat.lt_irrefl n)
      refine ⟨rfl, hu ▸ (v.valueEq_comm u).trans hequal, fun e he => ?_, fun k hk => ?_⟩
      · obtain ⟨x, hx, heq⟩ := hforth e (List.mem_cons_of_mem _ he)
        rcases List.mem_cons.mp hx with hx | hx
        · exact absurd (hf.lt_of_mem he) ((Prod.mk.inj hx).1 ▸ Nat.lt_irrefl _)
        · exact ⟨x, hx, heq⟩
      · obtain ⟨x, hx⟩ := hback k (List.mem_cons_of_mem _ hk)
        rcases List.mem_cons.mp hx with hx | hx
        · exact absurd (hg.lt_of_mem hk) ((Prod.mk.inj hx).1 ▸ Nat.lt_irrefl _)
        · exact ⟨x, hx⟩

end CellFilter
