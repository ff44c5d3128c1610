import CellFilter.Catalog.Memo
import CellFilter.Proofs.Catalog.Registry

/-!
# What the memos of a registry are worth

The memos of a registry hold what its catalog says and nothing else, so that with them and without
them it gives the same answers, whatever was asked and lost before.

* `MemoRegistry.Faithful`: a registry whose memos hold what the catalog says.
* `Answers`: a question with a known answer that leaves the memos faithful.
* `answers_getOr`: looking into a memo first makes no difference.
* `run_performAll`: **lookups in any order** get the answers of the catalog.
-/

namespace CellFilter

/-- What can happen to a registry: a question, or the loss of what it keeps under some names. -/
inductive CatalogCall where
  | typeNames
  | find (name : String)
  | encoded (name : String)
  | column (name : String) (family qualifier : Bytes)
  | forget (schemas payloads : String → Bool)

/-- What is said in return. -/
inductive CatalogAnswer where
  | names (names : List String)
  | entry (outcome : Except FilterError CatalogEntry)
  | encoded (outcome : Except FilterError EncodedSchema)
  | target (outcome : Except FilterError ColumnTarget)
  | nothing

/-- What a catalog says to a call. -/
def Catalog.answer (catalog : Catalog) (level : Nat) : CatalogCall → CatalogAnswer
  | .typeNames => .names catalog.typeNames
  | .find name => .entry (catalog.find name)
  | .encoded name => .encoded (catalog.encoded level name)
  | .column name family qualifier =>
    .target ((catalog.encoded level name).map fun e => e.target name family qualifier)
  | .forget _ _ => .nothing

namespace MemoRegistry

variable {α β : Type} {resources : List Resource} {level : Nat}

/-- What a registry with memos says to a call. -/
def perform : CatalogCall → WithMemo CatalogAnswer
  | .typeNames => return .names (← typeNames)
  | .find name => return .entry (← find name)
  | .encoded name => return .encoded (← encoded name)
  | .column name family qualifier => return .target (← column name family qualifier)
  | .forget schemas payloads => do
    forget schemas payloads
    return .nothing

/-- What it says to calls, one after the other. -/
def performAll (calls : List CatalogCall) : WithMemo (List CatalogAnswer) := calls.mapM perform

/-- A registry over some resources whose memos hold what the catalog says. -/
structure Faithful (resources : List Resource) (level : Nat) (memo : MemoRegistry) : Prop where
  serves : memo.registry.Serves resources level
  schemas : ∀ kept ∈ memo.schemas, (Catalog.ofResources resources).find kept.1 = .ok kept.2
  payloads : ∀ kept ∈ memo.payloads,
    (Catalog.ofResources resources).encoded level kept.1 = .ok kept.2

theorem faithful_ofResources (resources : List Resource) (level : Nat) :
    (ofResources resources level).Faithful resources level :=
  ⟨SchemaRegistry.serves_ofResources resources level, by simp [ofResources], by simp [ofResources]⟩

/-- A question that gets the same answer from every faithful registry and leaves it faithful. -/
def Answers (resources : List Resource) (level : Nat) (question : WithMemo α) (a : α) : Prop :=
  ∀ memo : MemoRegistry, memo.Faithful resources level →
    (question.run memo).1 = a ∧ (question.run memo).2.Faithful resources level

/-! ## Questions -/

theorem Answers.pure (a : α) : Answers resources level (Pure.pure a) a := fun _ h => ⟨rfl, h⟩

theorem Answers.bind {question : WithMemo α} {next : α → WithMemo β} {a : α} {b : β}
    (h : Answers resources level question a) (hnext : Answers resources level (next a) b) :
    Answers resources level (question >>= next) b := by
  intro memo hmemo
  obtain ⟨ha, hleft⟩ := h memo hmemo
  rw [StateT.run_bind]
  show (((next (question.run memo).1).run (question.run memo).2)).1 = b ∧
    (((next (question.run memo).1).run (question.run memo).2)).2.Faithful resources level
  rw [ha]
  exact hnext _ hleft

theorem answers_level (f : Nat → α) :
    Answers resources level (do return f (← get).registry.level) (f level) := by
  intro memo hmemo
  refine ⟨?_, hmemo⟩
  show f memo.registry.level = f level
  rw [hmemo.serves.level]

/-- What the catalog of the registry decides is answered so. -/
theorem answers_ask {f : Catalog → α} {question : WithRegistry α}
    (h : question = do return f (← SchemaRegistry.catalog)) :
    Answers resources level (ask question) (f (.ofResources resources)) := by
  intro memo hmemo
  obtain ⟨left, hcatalog, hleft⟩ := hmemo.serves.run_catalog
  have hrun : question.run memo.registry = (f (.ofResources resources), left) := by
    rw [h]
    show (f (SchemaRegistry.catalog.run memo.registry).1,
      (SchemaRegistry.catalog.run memo.registry).2) = _
    rw [hcatalog]
  show (question.run memo.registry).1 = _ ∧
    MemoRegistry.Faithful resources level { memo with registry := (question.run memo.registry).2 }
  rw [hrun]
  exact ⟨rfl, hleft, hmemo.schemas, hmemo.payloads⟩

/-! ## Looking into a memo first -/

section

variable {memo : Memo α} {name : String} {question : WithMemo (Except FilterError α)}
  {m left : MemoRegistry}

/-- What is kept is said, and the question is not asked. -/
theorem run_getOr_of_kept {a : α} (h : (memo.kept m).lookup name = some a) :
    (memo.getOr name question).run m = (.ok a, m) := by
  unfold Memo.getOr
  simp only [StateT.run_bind, StateT.run_get, pure_bind, h]
  rfl

/-- Otherwise the answer to the question is said and kept. -/
theorem run_getOr_of_ok {a : α} (h : (memo.kept m).lookup name = none)
    (hquestion : question.run m = (.ok a, left)) :
    (memo.getOr name question).run m = (.ok a, memo.keep name a left) := by
  unfold Memo.getOr
  simp only [StateT.run_bind, StateT.run_get, pure_bind, h, hquestion]
  rfl

/-- A failure is said and not kept. -/
theorem run_getOr_of_error {e : FilterError} (h : (memo.kept m).lookup name = none)
    (hquestion : question.run m = (.error e, left)) :
    (memo.getOr name question).run m = (.error e, left) := by
  unfold Memo.getOr
  simp only [StateT.run_bind, StateT.run_get, pure_bind, h, hquestion]
  rfl

/-- **Looking into a memo first** makes no difference: what is kept is what is said. -/
theorem answers_getOr {said : String → Except FilterError α}
    (hkept : ∀ m : MemoRegistry, m.Faithful resources level → ∀ kept ∈ memo.kept m,
      said kept.1 = .ok kept.2)
    (hkeep : ∀ m : MemoRegistry, m.Faithful resources level → ∀ a, said name = .ok a →
      (memo.keep name a m).Faithful resources level)
    (h : Answers resources level question (said name)) :
    Answers resources level (memo.getOr name question) (said name) := by
  intro m hm
  cases hlookup : (memo.kept m).lookup name with
  | some a =>
    obtain ⟨before, after, hsplit, -⟩ := List.lookup_eq_some_iff.mp hlookup
    have hmem : (name, a) ∈ memo.kept m := by simp [hsplit]
    rw [run_getOr_of_kept hlookup]
    exact ⟨(hkept m hm _ hmem).symm, hm⟩
  | none =>
    obtain ⟨hanswer, hleft⟩ := h m hm
    cases hquestion : question.run m with
    | mk answer left =>
      rw [hquestion] at hanswer hleft
      cases answer with
      | error e =>
        rw [run_getOr_of_error hlookup hquestion]
        exact ⟨hanswer, hleft⟩
      | ok a =>
        rw [run_getOr_of_ok hlookup hquestion]
        exact ⟨hanswer, hkeep left hleft a hanswer.symm⟩

end

/-! ## Calls -/

theorem answers_find (name : String) :
    Answers resources level (find name) ((Catalog.ofResources resources).find name) := by
  rw [← Catalog.find_trimName]
  have hask : Answers resources level (ask (SchemaRegistry.find (Schema.trimName name)))
      ((Catalog.ofResources resources).find (Schema.trimName name)) :=
    answers_ask (f := fun catalog => catalog.find (Schema.trimName name)) rfl
  refine answers_getOr (fun m hm => hm.schemas) (fun m hm a ha => ?_) hask
  exact ⟨hm.serves, List.forall_mem_cons.mpr ⟨ha, hm.schemas⟩, hm.payloads⟩

theorem answers_encoded (name : String) : Answers resources level (encoded name)
    ((Catalog.ofResources resources).encoded level name) := by
  rw [← Catalog.encoded_trimName]
  refine answers_getOr (fun m hm => hm.payloads) (fun m hm a ha => ?_) ?_
  · exact ⟨hm.serves, hm.schemas, List.forall_mem_cons.mpr ⟨ha, hm.payloads⟩⟩
  · exact (answers_find (Schema.trimName name)).bind
      (answers_level fun level => (Catalog.ofResources resources).encoded level _)

theorem answers_column (name : String) (family qualifier : Bytes) :
    Answers resources level (column name family qualifier)
      (((Catalog.ofResources resources).encoded level name).map fun e =>
        e.target name family qualifier) :=
  (answers_encoded name).bind (.pure _)

/-- A call is answered as the catalog answers it, and the memos stay faithful. -/
theorem answers_perform (call : CatalogCall) : Answers resources level (perform call)
    ((Catalog.ofResources resources).answer level call) := by
  cases call with
  | typeNames => exact (answers_ask (f := Catalog.typeNames) rfl).bind (.pure _)
  | find name => exact (answers_find name).bind (.pure _)
  | encoded name => exact (answers_encoded name).bind (.pure _)
  | column name family qualifier =>
    exact (answers_column name family qualifier).bind (.pure _)
  | forget schemas payloads =>
    intro memo hmemo
    refine ⟨rfl, hmemo.serves, fun kept hkept => ?_, fun kept hkept => ?_⟩
    · exact hmemo.schemas kept (List.mem_filter.mp hkept).1
    · exact hmemo.payloads kept (List.mem_filter.mp hkept).1

theorem answers_performAll (calls : List CatalogCall) :
    Answers resources level (performAll calls)
      (calls.map ((Catalog.ofResources resources).answer level)) := by
  induction calls with
  | nil => exact .pure []
  | cons call rest ih =>
    rw [performAll, List.mapM_cons]
    exact (answers_perform call).bind (ih.bind (.pure _))

/-- **Lookups in any order** get the answers of the catalog. -/
theorem run_performAll (resources : List Resource) (level : Nat) (calls : List CatalogCall) :
    ((performAll calls).run (ofResources resources level)).1 =
      calls.map ((Catalog.ofResources resources).answer level) :=
  (answers_performAll calls _ (faithful_ofResources resources level)).1

end MemoRegistry

end CellFilter
