import CellFilter.Proofs.Schema.Resolution
import Mathlib.Data.List.TakeWhile

/-!
# Names in enclosing scopes

A type name that does not begin with a dot is searched from the inside out: in the scope where it is
used, then each time in the scope without its last component, and at the end outside of all scopes.
The scopes that are searched are the beginnings of the scope at its dots, the longest first.

* `parentScope_eq`: a scope is cut at its last dot.
* `Search.step`: one round of a search; `Search.iterate_step` is the whole of one.
* `Scope.findSome?_outward`: the search goes through the scope with fewer and fewer components.
* `SchemaPool.resolveType_innermost`: **the innermost scope** that has the name decides.
-/

namespace CellFilter

variable {scope : List Char}

/-! ## Components of scopes -/

namespace Scope

/-- The components of a scope: what stands between its dots. -/
def components (scope : List Char) : List (List Char) := scope.splitOn '.'

/-- Components with dots between them. -/
def joinDots (components : List (List Char)) : List Char := ['.'].intercalate components

/-- A scope with all of its components, with one less and so on, down to none. -/
def outward (scope : List Char) : List (List Char) :=
  (components scope).inits.reverse.map joinDots

end Scope

/-- A scope is cut at its last dot; around one without dots there is only the empty one. -/
theorem parentScope_eq (scope : List Char) : ('.' ∉ scope ∧ parentScope scope = []) ∨
    ∃ last, '.' ∉ last ∧ scope = parentScope scope ++ '.' :: last := by
  -- the last dot is the first one from behind
  have hlast : '.' ∉ (scope.reverse.takeWhile (· != '.')).reverse := by
    intro hdot
    simpa using List.mem_takeWhile_imp (List.mem_reverse.mp hdot)
  have hsplit : scope = (scope.reverse.dropWhile (· != '.')).reverse ++
      (scope.reverse.takeWhile (· != '.')).reverse := by
    rw [← List.reverse_append, List.takeWhile_append_dropWhile, List.reverse_reverse]
  cases hback : scope.reverse.dropWhile (· != '.') with
  | nil =>
    rw [hback, List.reverse_nil, List.nil_append] at hsplit
    refine .inl ⟨hsplit ▸ hlast, ?_⟩
    rw [parentScope, hback]
    rfl
  | cons c back =>
    have hc : c = '.' := by
      have hhead := List.head?_dropWhile_not (· != '.') scope.reverse
      simpa [hback] using hhead
    have hparent : parentScope scope = back.reverse := by
      rw [parentScope, hback]
      rfl
    refine .inr ⟨_, hlast, ?_⟩
    rw [hback, hc, List.reverse_cons, List.append_assoc] at hsplit
    rw [hparent]
    exact hsplit

namespace Scope

theorem components_of_no_dot (h : '.' ∉ scope) : components scope = [scope] :=
  List.splitOn_eq_singleton h

theorem components_append (parent : List Char) {last : List Char} (h : '.' ∉ last) :
    components (parent ++ '.' :: last) = components parent ++ [last] := by
  rw [components, List.splitOn_append_cons_self, List.splitOn_eq_singleton h]
  rfl

theorem joinDots_components (scope : List Char) : joinDots (components scope) = scope :=
  List.intercalate_splitOn '.'

theorem outward_of_no_dot (h : '.' ∉ scope) : outward scope = [scope, []] := by
  rw [outward, components_of_no_dot h]
  show [joinDots [scope], joinDots []] = _
  rw [← components_of_no_dot h, joinDots_components]
  rfl

theorem outward_append (parent : List Char) {last : List Char} (h : '.' ∉ last) :
    outward (parent ++ '.' :: last) = (parent ++ '.' :: last) :: outward parent := by
  have hinits : (components (parent ++ '.' :: last)).inits =
      (components parent).inits ++ [components (parent ++ '.' :: last)] := by
    rw [components_append parent h, List.inits_append]
    rfl
  rw [outward, hinits, List.reverse_append, List.reverse_singleton, List.singleton_append,
    List.map_cons, joinDots_components]
  rfl

end Scope

/-! ## The search -/

theorem enclosingScopes_nil : enclosingScopes [] = [[]] := by
  rw [enclosingScopes, if_pos rfl]

theorem enclosingScopes_of_ne_nil (h : scope ≠ []) :
    enclosingScopes scope = scope :: enclosingScopes (parentScope scope) := by
  rw [enclosingScopes, if_neg h]

/-- **The enclosing scopes** are the scope with fewer and fewer components.  If the first component is
empty, the empty scope is left with one component and with none, and counts once in a search. -/
theorem Scope.findSome?_outward {α : Type} (f : List Char → Option α) (scope : List Char) :
    (outward scope).findSome? f = (enclosingScopes scope).findSome? f := by
  induction scope using enclosingScopes.induct with
  | case1 =>
    rw [outward_of_no_dot List.not_mem_nil, enclosingScopes_nil]
    cases h : f [] <;> simp [h]
  | case2 scope hne ih =>
    rw [enclosingScopes_of_ne_nil hne]
    rcases parentScope_eq scope with ⟨hdot, hparent⟩ | ⟨last, hlast, hscope⟩
    · rw [outward_of_no_dot hdot, hparent, enclosingScopes_nil]
    · have houtward : outward scope = scope :: outward (parentScope scope) := by
        have happend := outward_append (parentScope scope) hlast
        rwa [← hscope] at happend
      rw [houtward, List.findSome?_cons, List.findSome?_cons, ih]

theorem length_enclosingScopes_le (scope : List Char) :
    (enclosingScopes scope).length ≤ (Scope.components scope).length + 1 := by
  induction scope using enclosingScopes.induct with
  | case1 =>
    rw [enclosingScopes_nil]
    exact Nat.le_add_left 1 _
  | case2 scope hne ih =>
    rw [enclosingScopes_of_ne_nil hne, List.length_cons]
    rcases parentScope_eq scope with ⟨hdot, hparent⟩ | ⟨last, hlast, hscope⟩
    · rw [hparent, enclosingScopes_nil, Scope.components_of_no_dot hdot]
      rfl
    · have hcomponents := Scope.components_append (parentScope scope) hlast
      rw [← hscope] at hcomponents
      rw [hcomponents, List.length_append]
      exact Nat.succ_le_succ ih

namespace SchemaPool

/-- How far the search for a relative type name got. -/
inductive Search where
  /-- The name is to be looked up in a scope. -/
  | inside (scope : List Char)
  /-- The search is over. -/
  | ended (found : Option TypeRef)

variable {pool : SchemaPool} {typeName name : String}

namespace Search

/-- One round of a search.  The name is looked up inside the scope; if it is not there, the search
goes on one component further out, and ends after the empty scope. -/
def step (pool : SchemaPool) (typeName : String) : Search → Search
  | ended found => ended found
  | inside scope =>
    match pool.type? (qualify (String.ofList scope) typeName) with
    | some ref => ended (some ref)
    | none => if scope = [] then ended none else inside (parentScope scope)

/-- **The whole of a search** takes no more rounds than there are enclosing scopes, and finds what is
declared in the first of them that has the name. -/
theorem iterate_step (pool : SchemaPool) (typeName : String) (scope : List Char) :
    ∃ rounds ≤ (enclosingScopes scope).length, (step pool typeName)^[rounds] (inside scope) =
      ended ((enclosingScopes scope).findSome? fun s =>
        pool.type? (qualify (String.ofList s) typeName)) := by
  induction scope using enclosingScopes.induct with
  | case1 =>
    rw [enclosingScopes_nil]
    refine ⟨1, le_rfl, ?_⟩
    rw [Function.iterate_one, List.findSome?_singleton, step]
    cases pool.type? (qualify (String.ofList []) typeName) <;> rfl
  | case2 scope hne ih =>
    rw [enclosingScopes_of_ne_nil hne, List.findSome?_cons, List.length_cons]
    cases hfound : pool.type? (qualify (String.ofList scope) typeName) with
    | some ref =>
      refine ⟨1, Nat.le_add_left 1 _, ?_⟩
      rw [Function.iterate_one, step, hfound]
    | none =>
      obtain ⟨rounds, hrounds, hended⟩ := ih
      refine ⟨rounds + 1, Nat.succ_le_succ hrounds, ?_⟩
      rw [Function.iterate_succ_apply, step, hfound]
      dsimp only
      rw [if_neg hne, hended]

end Search

theorem toList_dot_append (name : String) : ("." ++ name).toList = '.' :: name.toList := by
  rw [String.toList_append]
  rfl

/-- What a type name may stand for inside a scope: the name inside the scope with all of its
components, with one less and so on, and at the end the name alone. -/
def outwardNames (scope typeName : String) : List String :=
  (Scope.outward scope.toList).map fun s => qualify (String.ofList s) typeName

/-- A name that does not begin with a dot is searched from the inside out. -/
theorem resolveType_relative (pool : SchemaPool) (scope : String)
    (h : ∀ name, typeName ≠ "." ++ name) :
    pool.resolveType scope typeName = ((outwardNames scope typeName).findSome? pool.type?).elim
      (.error (.unresolvedType typeName scope)) .ok := by
  have hrelative : ∀ absolute, typeName.toList ≠ '.' :: absolute := by
    intro absolute habsolute
    refine h (String.ofList absolute) (String.toList_injective ?_)
    rw [habsolute, toList_dot_append, String.toList_ofList]
  rw [resolveType_eq, candidates_relative hrelative, outwardNames, List.findSome?_map,
    List.findSome?_map, Scope.findSome?_outward]

/-- A name behind a dot is looked up as it is. -/
theorem resolveType_absolute (pool : SchemaPool) (scope name : String) :
    pool.resolveType scope ("." ++ name) =
      (pool.type? name).elim (.error (.unresolvedType ("." ++ name) scope)) .ok := by
  rw [resolveType_eq, candidates_absolute (toList_dot_append name), List.findSome?_singleton,
    String.ofList_toList]

/-- **The innermost scope** that has a name decides what the name stands for.  For a name without a
dot in front, the search is over after at most one round for each component of the scope and one more.
It yields what the first declared of the names from the inside out stands for, and fails just if none
of them is declared.  A name behind a dot stands for itself in every scope. -/
theorem resolveType_innermost (pool : SchemaPool) (scope typeName : String) :
    ((∀ name, typeName ≠ "." ++ name) →
      (∃ found, pool.resolveType scope typeName =
          found.elim (.error (.unresolvedType typeName scope)) .ok ∧
        ∃ rounds ≤ (Scope.components scope.toList).length + 1,
          (Search.step pool typeName)^[rounds] (.inside scope.toList) = .ended found) ∧
      (∀ ref, pool.resolveType scope typeName = .ok ref ↔
        ∃ nearer name farther, outwardNames scope typeName = nearer ++ name :: farther ∧
          pool.type? name = some ref ∧ ∀ n ∈ nearer, pool.type? n = none) ∧
      (pool.resolveType scope typeName = .error (.unresolvedType typeName scope) ↔
        ∀ name ∈ outwardNames scope typeName, pool.type? name = none)) ∧
    ∀ name, typeName = "." ++ name → pool.resolveType scope typeName =
      (pool.type? name).elim (.error (.unresolvedType typeName scope)) .ok := by
  refine ⟨fun hrelative => ?_, ?_⟩
  · have hresolve := resolveType_relative pool scope hrelative
    refine ⟨⟨_, hresolve, ?_⟩, fun ref => ?_, ?_⟩
    · obtain ⟨rounds, hrounds, hended⟩ := Search.iterate_step pool typeName scope.toList
      refine ⟨rounds, hrounds.trans (length_enclosingScopes_le _), ?_⟩
      rw [hended, outwardNames, List.findSome?_map, Scope.findSome?_outward]
      rfl
    · rw [hresolve, ← List.findSome?_eq_some_iff]
      cases (outwardNames scope typeName).findSome? pool.type? <;> simp
    · rw [hresolve, ← List.findSome?_eq_none_iff]
      cases (outwardNames scope typeName).findSome? pool.type? <;> simp
  · rintro name rfl
    exact resolveType_absolute pool scope name

/-- A pool in which a name is declared at three levels. -/
def shadowPool : SchemaPool where
  files := []
  messages := []
  enums := []
  types := [("T", .message 0), ("a.T", .enum 0), ("a.b.M.T", .message 1)]

/-- The name inside the scope of another message, behind a dot, and one that is declared nowhere. -/
theorem resolveType_innermost_shadowed :
    (∀ name, "T" ≠ "." ++ name) ∧ shadowPool.resolveType "a.b.N" "T" = .ok (.enum 0) ∧
      shadowPool.resolveType "a.b.N" ".T" = .ok (.message 0) ∧
      (∀ name, "U" ≠ "." ++ name) ∧
      shadowPool.resolveType "a.b.N" "U" = .error (.unresolvedType "U" "a.b.N") := by
  have hfirst : ∀ (c : Char) (name : String), c ≠ '.' → String.singleton c ≠ "." ++ name := by
    intro c name hc heq
    have hlist := congrArg String.toList heq
    rw [toList_dot_append, String.toList_singleton] at hlist
    exact hc (List.cons.inj hlist).1
  have hT := fun name => hfirst 'T' name (by decide)
  have hU := fun name => hfirst 'U' name (by decide)
  have hnames : outwardNames "a.b.N" "T" = ["a.b.N.T", "a.b.T", "a.T", "T"] := by decide
  have hnone : outwardNames "a.b.N" "U" = ["a.b.N.U", "a.b.U", "a.U", "U"] := by decide
  obtain ⟨hinner, -⟩ := resolveType_innermost shadowPool "a.b.N" "T"
  obtain ⟨-, houter⟩ := resolveType_innermost shadowPool "a.b.N" ".T"
  obtain ⟨hnowhere, -⟩ := resolveType_innermost shadowPool "a.b.N" "U"
  refine ⟨hT, ?_, houter "T" rfl, hU, ?_⟩
  · exact ((hinner hT).2.1 (.enum 0)).mpr
      ⟨["a.b.N.T", "a.b.T"], "a.T", ["T"], hnames, by decide, by decide⟩
  · refine (hnowhere hU).2.2.mpr ?_
    rw [hnone]
    decide

end SchemaPool

end CellFilter
