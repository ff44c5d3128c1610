import Mathlib.Data.List.Nodup

/-!
# Looking up keys

The first entry of a list that has a key, and what filters and other entries do to it.
-/

namespace CellFilter

variable {α β : Type} [BEq α] [LawfulBEq α]

theorem mem_of_lookup {l : List (α × β)} {a : α} {b : β} (h : l.lookup a = some b) :
    (a, b) ∈ l := by
  obtain ⟨front, back, rfl, -⟩ := List.lookup_eq_some_iff.mp h
  exact List.mem_append_right front List.mem_cons_self

theorem lookup_eq_some_iff_mem {l : List (α × β)} (hl : (l.map Prod.fst).Nodup) {a : α} {b : β} :
    l.lookup a = some b ↔ (a, b) ∈ l := by
  induction l with
  | nil => simp
  | cons entry rest ih =>
    obtain ⟨k, v⟩ := entry
    rw [List.map_cons, List.nodup_cons] at hl
    rw [List.lookup_cons, List.mem_cons, Prod.mk.injEq]
    by_cases hk : a = k
    · subst hk
      have hnot : (a, b) ∉ rest := fun h => hl.1 (List.mem_map.mpr ⟨(a, b), h, rfl⟩)
      simp [hnot, eq_comm]
    · rw [beq_false_of_ne hk]
      simp [hk, ih hl.2]

theorem lookup_filter_key (keep : α → Bool) (a : α) (l : List (α × β)) :
    (l.filter fun entry => keep entry.1).lookup a = if keep a then l.lookup a else none := by
  induction l with
  | nil => simp
  | cons entry rest ih =>
    obtain ⟨k, v⟩ := entry
    by_cases hk : a = k
    · subst hk
      by_cases ha : keep a = true
      · simp [ha]
      · simpa [ha] using ih
    · by_cases hkeep : keep k = true
      · simp [hkeep, List.lookup_cons, beq_false_of_ne hk, ih]
      · simp [hkeep, List.lookup_cons, beq_false_of_ne hk, ih]

end CellFilter
