import CellFilter.Payload.Traversal
import Mathlib.Data.Finset.Card
import Mathlib.Data.List.Nodup
import Mathlib.Data.List.Perm.Basic
import Mathlib.Logic.Relation

/-!
# What a depth-first walk does

A walk over a finite set of names that its steps do not leave.

* `Grows`: what visits add to a walk: names that were not discovered yet and can be reached, each
  finished once, with everything next to them.
* `visit_grows`, `foldl_visit_grows`: visits do that, if they may go deep enough.
* `ofStarts_discovered`: a whole walk discovers just what can be reached.
* `ofStarts_ranked`: a name is finished after everything next to it that does not lead back to it.
-/

namespace CellFilter.Walk

open Relation

variable {next : String → List String} {U : List String}

/-- One step of a walk. -/
def Leads (next : String → List String) (a b : String) : Prop := b ∈ next a

/-- What visiting some names adds to a walk. -/
structure Grows (next : String → List String) (starts : List String) (w w' : Walk)
    (new done : List String) : Prop where
  discovered : w'.discovered = new ++ w.discovered
  finished : w'.finished = done ++ w.finished
  perm : done.Perm new
  nodup : new.Nodup
  fresh : ∀ b ∈ new, b ∉ w.discovered
  reached : ∀ b ∈ new, ∃ a ∈ starts, ReflTransGen (Leads next) a b
  starts : ∀ a ∈ starts, a ∈ w'.discovered
  closed : ∀ b ∈ new, ∀ c ∈ next b, c ∈ w'.discovered

namespace Grows

variable {starts starts' : List String} {w w' w'' : Walk} {new new' done done' : List String}

theorem refl (next : String → List String) (h : ∀ a ∈ starts, a ∈ w.discovered) :
    Grows next starts w w [] [] where
  discovered := rfl
  finished := rfl
  perm := .nil
  nodup := .nil
  fresh := by simp
  reached := by simp
  starts := h
  closed := by simp

theorem mono (h : Grows next starts w w' new done) {b : String} (hb : b ∈ w.discovered) :
    b ∈ w'.discovered := by
  rw [h.discovered]
  exact List.mem_append_right _ hb

theorem trans (h : Grows next starts w w' new done) (h' : Grows next starts' w' w'' new' done') :
    Grows next (starts ++ starts') w w'' (new' ++ new) (done' ++ done) where
  discovered := by rw [h'.discovered, h.discovered, List.append_assoc]
  finished := by rw [h'.finished, h.finished, List.append_assoc]
  perm := h'.perm.append h.perm
  nodup := by
    refine List.nodup_append'.mpr ⟨h'.nodup, h.nodup, ?_⟩
    intro b hb' hb
    refine h'.fresh b hb' ?_
    rw [h.discovered]
    exact List.mem_append_left _ hb
  fresh := by
    intro b hb hw
    rcases List.mem_append.mp hb with hb | hb
    · exact h'.fresh b hb (h.mono hw)
    · exact h.fresh b hb hw
  reached := by
    intro b hb
    rcases List.mem_append.mp hb with hb | hb
    · obtain ⟨a, ha, hr⟩ := h'.reached b hb
      exact ⟨a, List.mem_append_right _ ha, hr⟩
    · obtain ⟨a, ha, hr⟩ := h.reached b hb
      exact ⟨a, List.mem_append_left _ ha, hr⟩
  starts := by
    intro a ha
    rcases List.mem_append.mp ha with ha | ha
    · exact h'.mono (h.starts a ha)
    · exact h'.starts a ha
  closed := by
    intro b hb c hc
    rcases List.mem_append.mp hb with hb | hb
    · exact h'.closed b hb c hc
    · exact h'.mono (h.closed b hb c hc)

/-- Visiting everything next to a name that was just discovered, then finishing it. -/
theorem enter {a : String} (ha : a ∉ w.discovered)
    (h : Grows next (next a) ⟨a :: w.discovered, w.finished⟩ w' new done) :
    Grows next [a] w ⟨w'.discovered, a :: w'.finished⟩ (new ++ [a]) (a :: done) where
  discovered := by simp [h.discovered]
  finished := by simp [h.finished]
  perm := (h.perm.cons a).trans (List.perm_append_singleton a new).symm
  nodup := by
    have hnot : a ∉ new := fun hn => h.fresh a hn List.mem_cons_self
    simpa [List.nodup_append', hnot] using h.nodup
  fresh := by
    intro b hb hw
    rcases List.mem_append.mp hb with hb | hb
    · exact h.fresh b hb (List.mem_cons_of_mem _ hw)
    · rw [List.mem_singleton.mp hb] at hw
      exact ha hw
  reached := by
    intro b hb
    refine ⟨a, List.mem_singleton_self a, ?_⟩
    rcases List.mem_append.mp hb with hb | hb
    · obtain ⟨c, hc, hr⟩ := h.reached b hb
      exact ReflTransGen.head hc hr
    · rw [List.mem_singleton.mp hb]
  starts := by
    intro b hb
    rw [List.mem_singleton.mp hb]
    exact h.mono List.mem_cons_self
  closed := by
    intro b hb c hc
    rcases List.mem_append.mp hb with hb | hb
    · exact h.closed b hb c hc
    · rw [List.mem_singleton.mp hb] at hc
      exact h.starts c hc

end Grows

/-- How many names of a list a walk has not discovered. -/
def missing (U : List String) (w : Walk) : Nat := (U.toFinset \ w.discovered.toFinset).card

theorem missing_mono {w w' : Walk} (h : ∀ b ∈ w.discovered, b ∈ w'.discovered) :
    missing U w' ≤ missing U w := by
  refine Finset.card_le_card (Finset.sdiff_subset_sdiff subset_rfl ?_)
  intro b hb
  rw [List.mem_toFinset] at hb ⊢
  exact h b hb

theorem missing_enter {w : Walk} {a : String} (ha : a ∈ U) (hw : a ∉ w.discovered) :
    missing U ⟨a :: w.discovered, w.finished⟩ < missing U w := by
  refine Finset.card_lt_card (Finset.ssubset_iff_of_subset ?_ |>.mpr ⟨a, ?_, ?_⟩)
  · intro b hb
    simp only [Finset.mem_sdiff, List.mem_toFinset, List.mem_cons, not_or] at hb ⊢
    exact ⟨hb.1, hb.2.2⟩
  · simpa using ⟨ha, hw⟩
  · simp

/-! ## Visits -/

/-- Visits one after the other, given what one visit does. -/
theorem foldl_grows {visit : Walk → String → Walk} {depth : Nat}
    (hvisit : ∀ w a, a ∈ U → missing U w ≤ depth →
      ∃ new done, Grows next [a] w (visit w a) new done) :
    ∀ (l : List String) (w : Walk), (∀ a ∈ l, a ∈ U) → missing U w ≤ depth →
      ∃ new done, Grows next l w (l.foldl visit w) new done
  | [], w, _, _ => ⟨[], [], Grows.refl next (by simp)⟩
  | a :: rest, w, hl, hd => by
    obtain ⟨new, done, h⟩ := hvisit w a (hl a List.mem_cons_self) hd
    have hd' : missing U (visit w a) ≤ depth := le_trans (missing_mono fun b => h.mono) hd
    obtain ⟨new', done', h'⟩ := foldl_grows hvisit rest (visit w a)
      (fun b hb => hl b (List.mem_cons_of_mem a hb)) hd'
    exact ⟨_, _, h.trans h'⟩

/-- **A visit** that may go as deep as there are names left. -/
theorem visit_grows (hU : ∀ a ∈ U, ∀ b ∈ next a, b ∈ U) :
    ∀ (depth : Nat) (w : Walk) (a : String), a ∈ U → missing U w ≤ depth →
      ∃ new done, Grows next [a] w (visit next depth w a) new done := by
  intro depth
  induction depth with
  | zero =>
    intro w a ha hd
    -- no depth is left only when no name is missing
    have hknown : a ∈ w.discovered := by
      by_contra hnew
      exact absurd (missing_enter ha hnew) (by omega)
    exact ⟨[], [], Grows.refl next (by simpa using hknown)⟩
  | succ depth ih =>
    intro w a ha hd
    rw [visit]
    by_cases hknown : w.discovered.contains a = true
    · rw [if_pos hknown]
      exact ⟨[], [], Grows.refl next (by simpa using hknown)⟩
    · rw [if_neg hknown]
      have hnew : a ∉ w.discovered := by simpa using hknown
      have hless := missing_enter ha hnew
      obtain ⟨new, done, h⟩ := foldl_grows ih (next a) ⟨a :: w.discovered, w.finished⟩ (hU a ha)
        (by omega)
      exact ⟨_, _, h.enter hnew⟩

/-! ## The order in which names are finished -/

/-- Whether each name of a list comes before everything next to it, except for what leads back to
it. -/
def Ranked (next : String → List String) : List String → Prop
  | [] => True
  | a :: rest => (∀ b ∈ next a, b ∈ rest ∨ ReflTransGen (Leads next) b a) ∧ Ranked next rest

/-- A name next to another one stands behind it or leads back to it. -/
theorem Ranked.of_leads : ∀ {l before after : List String} {a b : String}, Ranked next l →
    l = before ++ a :: after → Leads next a b → b ∈ after ∨ ReflTransGen (Leads next) b a
  | _, [], _, _, _, h, rfl, hb => h.1 _ hb
  | _, _ :: _, _, _, _, h, rfl, hb => of_leads h.2 rfl hb

/-- Whether everything that a walk has discovered and not finished leads to a name. -/
def Pending (next : String → List String) (w : Walk) (a : String) : Prop :=
  ∀ b ∈ w.discovered, b ∉ w.finished → ReflTransGen (Leads next) b a

theorem Grows.pending {starts : List String} {w w' : Walk} {new done : List String} {a : String}
    (h : Grows next starts w w' new done) (hp : Pending next w a) : Pending next w' a := by
  intro b hb hf
  rw [h.finished, List.mem_append, not_or] at hf
  rw [h.discovered, List.mem_append] at hb
  rcases hb with hb | hb
  · exact absurd (h.perm.mem_iff.mpr hb) hf.1
  · exact hp b hb hf.2

theorem foldl_ranked {visit : Walk → String → Walk} {depth : Nat}
    (hvisit : ∀ w a, a ∈ U → missing U w ≤ depth →
      ∃ new done, Grows next [a] w (visit w a) new done)
    (hranked : ∀ w a, a ∈ U → missing U w ≤ depth → Pending next w a →
      Ranked next w.finished → Ranked next (visit w a).finished) :
    ∀ (l : List String) (w : Walk), (∀ a ∈ l, a ∈ U) → missing U w ≤ depth →
      (∀ a ∈ l, Pending next w a) → Ranked next w.finished →
        Ranked next (l.foldl visit w).finished
  | [], _, _, _, _, hs => hs
  | a :: rest, w, hl, hd, hp, hs => by
    have ha : a ∈ U := hl a List.mem_cons_self
    obtain ⟨new, done, h⟩ := hvisit w a ha hd
    refine foldl_ranked hvisit hranked rest (visit w a)
      (fun b hb => hl b (List.mem_cons_of_mem a hb))
      (le_trans (missing_mono fun b => h.mono) hd) ?_
      (hranked w a ha hd (hp a List.mem_cons_self) hs)
    intro b hb
    exact h.pending (hp b (List.mem_cons_of_mem a hb))

/-- A visit finishes a name after everything next to it, except for what is still open then: that
leads to the name. -/
theorem visit_ranked (hU : ∀ a ∈ U, ∀ b ∈ next a, b ∈ U) :
    ∀ (depth : Nat) (w : Walk) (a : String), a ∈ U → missing U w ≤ depth → Pending next w a →
      Ranked next w.finished → Ranked next (visit next depth w a).finished := by
  intro depth
  induction depth with
  | zero => exact fun w a _ _ _ hs => hs
  | succ depth ih =>
    intro w a ha hd hp hs
    rw [visit]
    by_cases hknown : w.discovered.contains a = true
    · rw [if_pos hknown]
      exact hs
    · rw [if_neg hknown]
      have hnew : a ∉ w.discovered := by simpa using hknown
      have hless := missing_enter ha hnew
      have hd' : missing U ⟨a :: w.discovered, w.finished⟩ ≤ depth := by omega
      obtain ⟨new, done, h⟩ := foldl_grows (visit_grows hU depth) (next a)
        ⟨a :: w.discovered, w.finished⟩ (hU a ha) hd'
      have hrest := foldl_ranked (visit_grows hU depth) ih (next a)
        ⟨a :: w.discovered, w.finished⟩ (hU a ha) hd' ?_ hs
      · refine ⟨?_, hrest⟩
        intro b hb
        have hseen := h.starts b hb
        rw [h.discovered, List.mem_append, List.mem_cons] at hseen
        rw [h.finished, List.mem_append]
        -- `b` was discovered below `a`, is `a` itself, or was discovered before
        rcases hseen with hseen | rfl | hseen
        · exact Or.inl (Or.inl (h.perm.mem_iff.mpr hseen))
        · exact Or.inr .refl
        · by_cases hdone : b ∈ w.finished
          · exact Or.inl (Or.inr hdone)
          · exact Or.inr (hp b hseen hdone)
      · intro b hb g hg hopen
        rcases List.mem_cons.mp hg with rfl | hg
        · exact ReflTransGen.single hb
        · exact (hp g hg hopen).tail hb

/-! ## Whole walks -/

theorem missing_empty_le : missing U empty ≤ U.length := by
  refine le_trans (Finset.card_le_card (Finset.sdiff_subset)) ?_
  exact List.toFinset_card_le U

variable {starts : List String} {depth : Nat}

theorem ofStarts_grows (hU : ∀ a ∈ U, ∀ b ∈ next a, b ∈ U) (hstarts : ∀ a ∈ starts, a ∈ U)
    (hdepth : U.length ≤ depth) : ∃ new done,
      Grows next starts empty (ofStarts next depth starts) new done :=
  foldl_grows (visit_grows hU depth) starts empty hstarts (le_trans missing_empty_le hdepth)

/-- **A walk discovers** just what can be reached, each name once. -/
theorem ofStarts_discovered (hU : ∀ a ∈ U, ∀ b ∈ next a, b ∈ U) (hstarts : ∀ a ∈ starts, a ∈ U)
    (hdepth : U.length ≤ depth) :
    (ofStarts next depth starts).discovered.Nodup ∧
      ∀ b, b ∈ (ofStarts next depth starts).discovered ↔
        ∃ a ∈ starts, ReflTransGen (Leads next) a b := by
  obtain ⟨new, done, h⟩ := ofStarts_grows hU hstarts hdepth
  have hnew : (ofStarts next depth starts).discovered = new := by
    rw [h.discovered]
    exact List.append_nil new
  rw [hnew]
  refine ⟨h.nodup, fun b => ⟨h.reached b, ?_⟩⟩
  rintro ⟨a, ha, hr⟩
  rw [← hnew]
  induction hr with
  | refl => exact h.starts a ha
  | tail _ hstep ih =>
    rw [hnew] at ih
    exact h.closed _ ih _ hstep

theorem ofStarts_finished (hU : ∀ a ∈ U, ∀ b ∈ next a, b ∈ U) (hstarts : ∀ a ∈ starts, a ∈ U)
    (hdepth : U.length ≤ depth) :
    (ofStarts next depth starts).finished.Perm (ofStarts next depth starts).discovered := by
  obtain ⟨new, done, h⟩ := ofStarts_grows hU hstarts hdepth
  rw [h.finished, h.discovered]
  exact h.perm.append_right _

/-- **A walk finishes** each name after everything next to it that does not lead back to it. -/
theorem ofStarts_ranked (hU : ∀ a ∈ U, ∀ b ∈ next a, b ∈ U) (hstarts : ∀ a ∈ starts, a ∈ U)
    (hdepth : U.length ≤ depth) : Ranked next (ofStarts next depth starts).finished :=
  foldl_ranked (visit_grows hU depth) (visit_ranked hU depth) starts empty hstarts
    (le_trans missing_empty_le hdepth) (fun a _ b hb => absurd hb (by simp [empty])) trivial

end CellFilter.Walk
