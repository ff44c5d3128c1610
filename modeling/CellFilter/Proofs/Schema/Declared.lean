import CellFilter.Proofs.Schema.Imports

/-!
# A schema and its declaration

A schema of a built pool belongs to a unit of the pool, and following its path through that unit
leads to the declaration that its fields were resolved from.

* `FileDescriptor.messageAt?`: following a path that may lead nowhere.
* `Declaration.messageAt?_of_mem`: the path of a declared message leads to it.
* `Schema.exists_declared`: the unit of a schema, its declaration and what its fields come from.
-/

namespace CellFilter

open Outcome Relation

/-! ## Paths -/

/-- Follows a path of places through nested messages, as far as there are any. -/
def MessageDescriptor.nestedAt? (m : MessageDescriptor) : List Nat → Option MessageDescriptor
  | [] => some m
  | i :: rest => m.nested[i]?.bind fun inner => inner.nestedAt? rest

/-- The message of a unit that a path leads to, if it leads to one. -/
def FileDescriptor.messageAt? (unit : FileDescriptor) : List Nat → Option MessageDescriptor
  | [] => none
  | i :: rest => unit.messages[i]?.bind fun m => m.nestedAt? rest

theorem Schema.follow_of_nestedAt? {m d : MessageDescriptor} {path : List Nat}
    (h : m.nestedAt? path = some d) : follow m path = d := by
  induction path generalizing m with
  | nil => exact Option.some.inj h
  | cons i rest ih =>
    obtain ⟨inner, hinner, hrest⟩ := Option.bind_eq_some_iff.mp h
    rw [follow, hinner]
    exact ih hrest

/-- A schema has the declaration that its path leads to. -/
theorem Schema.declaration_of_messageAt? {s : Schema} {d : MessageDescriptor}
    (h : s.file.messageAt? s.type.path = some d) : s.declaration = d := by
  unfold declaration
  cases hpath : s.type.path with
  | nil =>
    rw [hpath] at h
    cases h
  | cons i rest =>
    rw [hpath] at h
    obtain ⟨m, hm, hd⟩ := Option.bind_eq_some_iff.mp h
    simp only [hm, Option.getD_some]
    exact follow_of_nestedAt? hd

namespace Declaration

@[simp] theorem messages_ofEnums (scope : String) (enums : List EnumDescriptor) :
    messages (ofEnums scope enums) = [] := by
  simp [messages, ofEnums, List.filterMap_map, Function.comp_def, message?]

mutual

/-- The path of a message that a message declares leads to it. -/
theorem nestedAt?_of_mem_ofMessage {scope name : String} {path place : List Nat}
    {d : MessageDescriptor} : ∀ {m : MessageDescriptor},
      (name, place, d) ∈ messages (ofMessage scope path m) →
        ∃ rest, place = path ++ rest ∧ m.nestedAt? rest = some d
  | ⟨name?, fields, nested, enums, carried⟩, h => by
    rw [ofMessage, messages_message, messages_append, messages_ofEnums, List.append_nil,
      List.mem_cons] at h
    rcases h with h | h
    · cases h
      exact ⟨[], (List.append_nil path).symm, rfl⟩
    · obtain ⟨i, inner, rest, hi, rfl, hd⟩ := nestedAt?_of_mem_ofMessages h
      refine ⟨(0 + i) :: rest, rfl, ?_⟩
      rw [MessageDescriptor.nestedAt?, Nat.zero_add, hi]
      exact hd

theorem nestedAt?_of_mem_ofMessages {scope name : String} {path place : List Nat}
    {d : MessageDescriptor} : ∀ {ms : List MessageDescriptor} {start : Nat},
      (name, place, d) ∈ messages (ofMessages scope path start ms) →
        ∃ i m rest, ms[i]? = some m ∧ place = path ++ (start + i) :: rest ∧
          m.nestedAt? rest = some d
  | [], _, h => by simp [ofMessages] at h
  | m :: ms, start, h => by
    rw [ofMessages, messages_append, List.mem_append] at h
    rcases h with h | h
    · obtain ⟨rest, rfl, hd⟩ := nestedAt?_of_mem_ofMessage h
      exact ⟨0, m, rest, rfl, by simp, hd⟩
    · obtain ⟨i, found, rest, hi, rfl, hd⟩ := nestedAt?_of_mem_ofMessages h
      exact ⟨i + 1, found, rest, hi, by rw [Nat.add_right_comm, Nat.add_assoc], hd⟩

end

/-- The path of a message that a unit declares leads to it. -/
theorem messageAt?_of_mem {unit : FileDescriptor} {name : String} {path : List Nat}
    {d : MessageDescriptor} (h : (name, path, d) ∈ messages (ofFile unit)) :
    unit.messageAt? path = some d := by
  rw [ofFile, messages_append, messages_ofEnums, List.append_nil] at h
  obtain ⟨i, m, rest, hi, rfl, hd⟩ := nestedAt?_of_mem_ofMessages h
  rw [List.nil_append, Nat.zero_add, FileDescriptor.messageAt?, hi]
  exact hd

theorem mem_ofFile_of_message {file : FileDescriptor} {d : String × List Nat × MessageDescriptor}
    (h : d ∈ messages (ofFile file)) : .message d.1 d.2.1 d.2.2 ∈ ofFile file := by
  obtain ⟨declared, hmem, hd⟩ := List.mem_filterMap.mp h
  cases declared with
  | message name path descriptor => cases hd; exact hmem
  | enum name descriptor => cases hd

end Declaration

namespace Schema

variable {s : Schema}

theorem type_mem (s : Schema) : s.type ∈ s.pool.messages := List.get_mem _ _

/-- What is known of the message type of a schema. -/
theorem exists_declared (h : s.pool.Built) :
    s.pool.files[s.type.file]? = some s.file ∧
      (s.fullName, s.type.path, s.declaration) ∈
        Declaration.messages (Declaration.ofFile s.file) ∧
      s.declaration.fields.mapM ((SchemaPool.scopeOf
        (s.pool.files.take (s.type.file + 1))).resolveField s.fullName) = .ok s.fields := by
  obtain ⟨unit, ⟨name, path, d⟩, hunit, hd, hmade⟩ := h.made s.type s.type_mem
  obtain rfl : s.fullName = name := hmade.fullName
  obtain rfl : s.type.path = path := hmade.path
  have hfile : s.file = unit := by rw [file, hunit]; rfl
  have hdecl : s.declaration = d :=
    declaration_of_messageAt? (hfile ▸ Declaration.messageAt?_of_mem hd)
  subst hfile hdecl
  exact ⟨hunit, hd, hmade.fields⟩

end Schema

end CellFilter
