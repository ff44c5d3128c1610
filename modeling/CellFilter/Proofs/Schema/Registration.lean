import CellFilter.Proofs.Schema.Pool
import CellFilter.Schema.Registration

/-!
# Adding a unit in place and as a whole

A pool that is changed in place and a pool that is replaced by a new one come to the same.  At every
step all that was done to the pool can be taken back, since it stands behind what was there before
and under names that were not there before.

* `Registration.Undone`: taking back what was done so far yields the pool from before.
* `Undone.claim`, `Undone.complete`: every step keeps that.
* `foldlM_claim`, `foldlM_complete`: what the steps come to if none fails.
* `addInPlace_eq`: **adding in place** is adding, and a failure changes nothing.
-/

namespace CellFilter

open Outcome

/-! ## Steps that may fail -/

section RunSteps

variable {σ α ε : Type} {step : σ → α → Except ε σ} {l : List α} {s t : σ} {e : ε}

theorem runSteps_of_ok (h : l.foldlM step s = .ok t) : runSteps step s l = (t, .ok ()) := by
  induction l generalizing s with
  | nil =>
    cases h
    rfl
  | cons a rest ih =>
    rw [List.foldlM_cons] at h
    obtain ⟨next, hnext, h⟩ := bind_eq_ok.mp h
    rw [runSteps, hnext]
    exact ih h

theorem runSteps_of_error (h : l.foldlM step s = .error e) :
    ∃ t, runSteps step s l = (t, .error e) := by
  induction l generalizing s with
  | nil => cases h
  | cons a rest ih =>
    rw [List.foldlM_cons] at h
    rw [runSteps]
    cases hnext : step s a with
    | error fault =>
      rw [hnext] at h
      cases h
      exact ⟨s, rfl⟩
    | ok next =>
      rw [hnext] at h
      exact ih h

/-- What every step keeps, all steps together keep, even if one of them fails. -/
theorem runSteps_keeps {P : σ → Prop} (hstep : ∀ a ∈ l, ∀ s t, P s → step s a = .ok t → P t)
    (hs : P s) : P (runSteps step s l).1 := by
  induction l generalizing s with
  | nil => exact hs
  | cons a rest ih =>
    rw [runSteps]
    cases hnext : step s a with
    | error fault => exact hs
    | ok next =>
      exact ih (fun b hb => hstep b (List.mem_cons_of_mem a hb))
        (hstep a List.mem_cons_self s next hs hnext)

end RunSteps

namespace Registration

variable {pool : SchemaPool} {r r' : Registration} {file : FileDescriptor}

/-! ## Taking back -/

/-- Taking back what was done to a pool so far yields the pool. -/
structure Undone (pool : SchemaPool) (r : Registration) : Prop where
  files : r.pool.files = pool.files
  messages : r.pool.messages.take pool.messages.length = pool.messages
  enums : r.pool.enums.take pool.enums.length = pool.enums
  types : (r.pool.types.filter fun entry => !r.added.contains entry.1) = pool.types
  /-- No message from before is changed. -/
  pending : ∀ entry ∈ r.pending, pool.messages.length ≤ entry.1

namespace Undone

theorem start (pool : SchemaPool) : Undone pool ⟨pool, [], []⟩ where
  files := rfl
  messages := List.take_length
  enums := List.take_length
  types := List.filter_eq_self.mpr fun _ _ => rfl
  pending := fun _ h => absurd h List.not_mem_nil

theorem undo_eq (h : Undone pool r) : r.undo pool.messages.length pool.enums.length = pool := by
  rw [undo, h.messages, h.enums, h.types, h.files]

theorem length_le {α : Type} {l before : List α} (h : l.take before.length = before) :
    before.length ≤ l.length := by
  have hmin := congrArg List.length h
  rw [List.length_take] at hmin
  omega

/-- What is added behind the entries from before does not count. -/
theorem take_append {α : Type} {l more before : List α} (h : l.take before.length = before) :
    (l ++ more).take before.length = before := by
  rw [List.take_append_of_le_length (length_le h), h]

/-- A claimed name was not there before. -/
theorem filter_claimed {types : List (String × TypeRef)} {name : String} {ref : TypeRef}
    {added : List String} (h : types.lookup name = none) :
    (((name, ref) :: types).filter fun entry => !(added ++ [name]).contains entry.1) =
      types.filter fun entry => !added.contains entry.1 := by
  rw [List.filter_cons_of_neg (by simp)]
  refine List.filter_congr fun entry hentry => ?_
  have hne : entry.1 ≠ name := by
    rintro rfl
    have hnot := List.lookup_eq_none_iff.mp h entry hentry
    simp at hnot
  simp [hne]

theorem claim (h : Undone pool r) {d : Declaration} (hr : r.claim d = .ok r') : Undone pool r' := by
  obtain ⟨next, hnext, hr⟩ := bind_eq_ok.mp hr
  cases hr
  obtain ⟨hfresh, rfl⟩ := SchemaPool.declare_eq_ok.mp hnext
  cases d with
  | message name path descriptor =>
    refine ⟨h.files, take_append h.messages, take_append h.enums,
      (filter_claimed hfresh).trans h.types, fun entry hentry => ?_⟩
    rcases List.mem_append.mp hentry with hold | hnew
    · exact h.pending entry hold
    · rw [List.mem_singleton.mp hnew]
      exact length_le h.messages
  | enum name descriptor =>
    exact ⟨h.files, take_append h.messages, take_append h.enums,
      (filter_claimed hfresh).trans h.types, h.pending⟩

theorem complete (h : Undone pool r) {entry : Nat × MessageDescriptor}
    (hplace : pool.messages.length ≤ entry.1) (hr : r.complete entry = .ok r') :
    Undone pool r' := by
  obtain ⟨fields, -, hr⟩ := bind_eq_ok.mp hr
  cases hr
  refine ⟨h.files, ?_, h.enums, h.types, h.pending⟩
  -- the message that is changed is not among those from before
  have hsame : (r.pool.messages.modify entry.1 fun m => { m with fields }).take
      pool.messages.length = r.pool.messages.take pool.messages.length := by
    refine List.ext_getElem? fun i => ?_
    simp only [List.getElem?_take, List.getElem?_modify]
    by_cases hi : i < pool.messages.length
    · simp [hi, Nat.ne_of_gt (Nat.lt_of_lt_of_le hi hplace)]
    · simp [hi]
  exact hsame.trans h.messages

end Undone

/-! ## What the steps come to -/

/-- The declared messages with their places, the first of them at place `start`. -/
def places (start : Nat) (ds : List Declaration) : List (Nat × MessageDescriptor) :=
  ((Declaration.messages ds).zipIdx start).map fun entry => (entry.2, entry.1.2.2)

@[simp] theorem places_nil (start : Nat) : places start [] = [] := rfl

@[simp] theorem places_message (start : Nat) (name : String) (path : List Nat)
    (descriptor : MessageDescriptor) (ds : List Declaration) :
    places start (.message name path descriptor :: ds) =
      (start, descriptor) :: places (start + 1) ds := rfl

@[simp] theorem places_enum (start : Nat) (name : String) (descriptor : EnumDescriptor)
    (ds : List Declaration) : places start (.enum name descriptor :: ds) = places start ds := rfl

variable {ds : List Declaration}

theorem claim_eq (r : Registration) (d : Declaration) :
    r.claim d = (r.pool.declare d).map fun next =>
      ⟨next, r.added ++ [d.fullName], r.pending ++ places r.pool.messages.length [d]⟩ := by
  unfold claim
  cases r.pool.declare d with
  | error e => rfl
  | ok next => cases d <;> simp

/-- Claiming every name is declaring every type. -/
theorem foldlM_claim (r : Registration) (ds : List Declaration) :
    ds.foldlM claim r = (ds.foldlM SchemaPool.declare r.pool).map fun next =>
      ⟨next, r.added ++ ds.map Declaration.fullName,
        r.pending ++ places r.pool.messages.length ds⟩ := by
  induction ds generalizing r with
  | nil =>
    show Except.ok r = .ok _
    simp
  | cons d rest ih =>
    rw [List.foldlM_cons, List.foldlM_cons, claim_eq]
    cases hnext : r.pool.declare d with
    | error e => rfl
    | ok next =>
      obtain ⟨-, rfl⟩ := SchemaPool.declare_eq_ok.mp hnext
      rw [map_ok, ok_bind, ok_bind, ih]
      cases d <;> simp [SchemaPool.withDeclared]

/-- A message whose fields are missing. -/
def blank (file : Nat) (d : String × List Nat × MessageDescriptor) : MessageType :=
  ⟨d.1, file, d.2.1, []⟩

/-- A message with its fields. -/
def fill (m : MessageType) (fields : List Field) : MessageType := { m with fields }

theorem resolveDeclared_congr {P Q : SchemaPool} (ht : P.types = Q.types) (he : P.enums = Q.enums)
    (ds : List Declaration) : P.resolveDeclared ds = Q.resolveDeclared ds := by
  induction ds with
  | nil => rfl
  | cons d rest ih =>
    cases d with
    | enum name descriptor => exact ih
    | message name path descriptor =>
      rw [SchemaPool.resolveDeclared, SchemaPool.resolveDeclared, ih,
        SchemaPool.resolveField_congr ht he]

theorem modify_length_append {α : Type} (front : List α) (a : α) (back : List α) (f : α → α) :
    (front ++ a :: back).modify front.length f = front ++ f a :: back := by
  induction front with
  | nil => rfl
  | cons b front ih => rw [List.cons_append, List.length_cons, List.modify_succ_cons, ih]; rfl

/-- A registration whose pool has other messages. -/
def withMessages (r : Registration) (messages : List MessageType) : Registration :=
  { r with pool := { r.pool with messages } }

theorem resolveDeclared_withMessages (messages : List MessageType) (ds : List Declaration) :
    (r.withMessages messages).pool.resolveDeclared ds = r.pool.resolveDeclared ds :=
  resolveDeclared_congr (P := (r.withMessages messages).pool) (Q := r.pool) rfl rfl ds

/-- Completing a message that stands behind some others. -/
theorem complete_eq {front back : List MessageType} {m : MessageType}
    (h : r.pool.messages = front ++ m :: back) (descriptor : MessageDescriptor) :
    r.complete (front.length, descriptor) =
      (descriptor.fields.mapM (r.pool.resolveField m.fullName)).map fun fields =>
        r.withMessages (front ++ fill m fields :: back) := by
  have hscope : (r.pool.messages[front.length]?.map MessageType.fullName).getD "" = m.fullName := by
    simp [h]
  rw [complete, hscope]
  cases descriptor.fields.mapM (r.pool.resolveField m.fullName) with
  | error e => rfl
  | ok fields =>
    have hmodify := modify_length_append front m back fun m => { m with fields }
    rw [← h] at hmodify
    simp only [ok_bind, pure_eq_ok, hmodify]
    rfl

/-- Completing the messages one by one is resolving all fields. -/
theorem foldlM_complete {k : Nat} {front : List MessageType}
    (h : r.pool.messages = front ++ (Declaration.messages ds).map (blank k)) :
    (places front.length ds).foldlM complete r = (r.pool.resolveDeclared ds).map fun fields =>
      r.withMessages (front ++ ((Declaration.messages ds).map (blank k)).zipWith fill fields) := by
  induction ds generalizing r front with
  | nil =>
    have hmessages : r.pool.messages = front := by simpa using h
    show Except.ok r = .ok _
    simp [withMessages, ← hmessages]
  | cons d rest ih =>
    cases d with
    | enum name descriptor => exact ih h
    | message name path descriptor =>
      have hfirst : r.pool.messages = front ++
          blank k (name, path, descriptor) :: (Declaration.messages rest).map (blank k) := h
      rw [places_message, List.foldlM_cons, SchemaPool.resolveDeclared, complete_eq hfirst]
      cases hfields : descriptor.fields.mapM (r.pool.resolveField name) with
      | error e =>
        rw [blank, hfields]
        rfl
      | ok fields =>
        obtain ⟨filled, hfilled⟩ : ∃ filled, filled =
            front ++ [fill (blank k (name, path, descriptor)) fields] := ⟨_, rfl⟩
        have hnext : front ++ fill (blank k (name, path, descriptor)) fields ::
            (Declaration.messages rest).map (blank k) =
              filled ++ (Declaration.messages rest).map (blank k) := by simp [hfilled]
        have hlength : front.length + 1 = filled.length := by simp [hfilled]
        have hrest := @ih (r.withMessages (filled ++ (Declaration.messages rest).map (blank k)))
          filled rfl
        have hfirst : descriptor.fields.mapM (r.pool.resolveField
            (blank k (name, path, descriptor)).fullName) = .ok fields := hfields
        rw [hfirst, map_ok, ok_bind, hnext, hlength, hrest, resolveDeclared_withMessages, ok_bind]
        cases r.pool.resolveDeclared rest with
        | error e => rfl
        | ok others => simp [hfilled, withMessages]

/-! ## Both ways of adding -/

/-- However far adding a unit got, it can be taken back. -/
theorem ofFile_undone (pool : SchemaPool) (file : FileDescriptor) :
    Undone pool (ofFile pool file).1 := by
  have hclaimed : Undone pool (runSteps claim ⟨pool, [], []⟩ (Declaration.ofFile file)).1 :=
    runSteps_keeps (fun _ _ _ _ h hr => h.claim hr) (.start pool)
  unfold ofFile
  cases hrun : runSteps claim ⟨pool, [], []⟩ (Declaration.ofFile file) with
  | mk r outcome =>
    rw [hrun] at hclaimed
    cases outcome with
    | error e => exact hclaimed
    | ok _ =>
      exact runSteps_keeps (fun entry hentry _ _ h hr =>
        h.complete (hclaimed.pending entry hentry) hr) hclaimed

/-- Once every type is declared, the fields are what is left to do. -/
theorem ofFile_of_declared {declared : SchemaPool}
    (h : (Declaration.ofFile file).foldlM SchemaPool.declare pool = .ok declared) :
    ∃ r, ofFile pool file = runSteps complete r r.pending ∧
      r.pending.foldlM complete r =
        (declared.resolveDeclared (Declaration.ofFile file)).map fun fields =>
          { r with pool := declared.withFields pool.messages.length fields } := by
  generalize hds : Declaration.ofFile file = ds at h
  have hclaim := foldlM_claim ⟨pool, [], []⟩ ds
  rw [h, map_ok, List.nil_append, List.nil_append] at hclaim
  obtain ⟨-, rfl⟩ := SchemaPool.foldlM_declare_eq_ok.mp h
  refine ⟨⟨pool.withDeclared ds, ds.map Declaration.fullName, places pool.messages.length ds⟩,
    by rw [ofFile, hds, runSteps_of_ok hclaim], ?_⟩
  refine (foldlM_complete (k := pool.files.length) rfl).trans ?_
  congr 1
  funext fields
  have hmessages : (pool.withDeclared ds).withFields pool.messages.length fields =
      { pool.withDeclared ds with messages := pool.messages ++
          ((Declaration.messages ds).map (blank pool.files.length)).zipWith fill fields } := by
    rw [SchemaPool.withFields, SchemaPool.withDeclared, List.take_left, List.drop_left]
    rfl
  rw [hmessages]
  rfl

theorem ofFile_of_error {e : FilterError} (h : pool.register file = .error e) :
    ∃ r, ofFile pool file = (r, .error e) := by
  rw [SchemaPool.register] at h
  cases hd : (Declaration.ofFile file).foldlM SchemaPool.declare pool with
  | error fault =>
    rw [hd] at h
    cases h
    have hclaim := foldlM_claim ⟨pool, [], []⟩ (Declaration.ofFile file)
    rw [hd] at hclaim
    obtain ⟨r, hr⟩ := runSteps_of_error hclaim
    exact ⟨r, by rw [ofFile, hr]⟩
  | ok declared =>
    obtain ⟨r, hr, hcomplete⟩ := ofFile_of_declared hd
    rw [hd] at h
    cases hfields : declared.resolveDeclared (Declaration.ofFile file) with
    | error fault =>
      rw [hfields] at hcomplete
      rw [ok_bind, hfields] at h
      cases h
      rw [hr]
      exact runSteps_of_error hcomplete
    | ok fields =>
      rw [ok_bind, hfields] at h
      cases h

theorem ofFile_of_ok {next : SchemaPool} (h : pool.register file = .ok next) :
    ∃ r, ofFile pool file = (r, .ok ()) ∧ r.pool = next := by
  obtain ⟨declared, hd, h⟩ := bind_eq_ok.mp h
  obtain ⟨fields, hfields, h⟩ := bind_eq_ok.mp h
  cases h
  obtain ⟨r, hr, hcomplete⟩ := ofFile_of_declared hd
  rw [hfields] at hcomplete
  exact ⟨_, by rw [hr, runSteps_of_ok hcomplete], rfl⟩

end Registration

/-- **Adding in place** is adding: it fails for the same reason, and then the pool is left as it
was. -/
theorem SchemaPool.addInPlace_eq (pool : SchemaPool) (file : FileDescriptor) :
    pool.addInPlace file = match pool.addFile file with
      | .ok next => (next, .ok ())
      | .error e => (pool, .error e) := by
  rw [addInPlace, addFile]
  by_cases hthere : pool.containsFile file.name = true
  · rw [if_pos hthere, if_pos hthere]
    rfl
  rw [if_neg hthere, if_neg hthere]
  cases file.dependencies.find? fun d => !pool.containsFile d with
  | some missing => rfl
  | none =>
    cases hregister : pool.register file with
    | error e =>
      obtain ⟨r, hr⟩ := Registration.ofFile_of_error hregister
      have hundone := Registration.ofFile_undone pool file
      rw [hr] at hundone
      simp only [hr, hundone.undo_eq]
      rfl
    | ok next =>
      obtain ⟨r, hr, rfl⟩ := Registration.ofFile_of_ok hregister
      simp only [hr]
      rfl

end CellFilter
