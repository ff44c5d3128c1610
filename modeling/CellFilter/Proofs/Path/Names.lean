import CellFilter.Proofs.Message.Modes
import Mathlib.Data.List.TakeWhile

/-!
# Paths as lists of names

A path is read name by name, each time from the text that is left.  What comes out depends on the
names between the dots alone: dots in front, at the end or next to each other do not count.  Here the
names of a path are split off at once, and a list of names leads to a place in a message.

* `Path.segments_eq`: the first name of a path and the names of what follows it.
* `Path.place`: where a list of names leads.
* `Path.extractChars_eq_reading`: a path yields what is at the place of its names.
* `Path.extract_reads_names`: **reading a path**, and reading one path behind another.
* `Path.extract_inside_itself`: a path behind which there is no name.
-/

namespace CellFilter

/-- The text that an enumeration has for a number: its first declared name, or its digits if none is
declared. -/
inductive EnumType.Shows (e : EnumType) (n : Int32) : String → Prop
  | named {name : String} (before after : List (String × Int32))
      (h : e.values = before ++ (name, n) :: after) (hfirst : ∀ v ∈ before, v.2 ≠ n) : Shows e n name
  | unnamed (h : ∀ v ∈ e.values, v.2 ≠ n) : Shows e n (toString n.toInt)

theorem Atom.toScalar_enumNumber {e : EnumType} {n : Int32} {text : String} :
    (Atom.enumNumber n).toScalar (some e) = .string text ↔ e.Shows n text := by
  rw [Atom.toScalar, Option.bind_some, EnumType.symbol?, Scalar.string.injEq]
  constructor
  · rintro rfl
    cases hfind : e.values.find? fun v => v.2 == n with
    | none => exact .unnamed (by simpa using hfind)
    | some v =>
      obtain ⟨hv, before, after, hsplit, hbefore⟩ := List.find?_eq_some_iff_append.mp hfind
      obtain rfl : v.2 = n := by simpa using hv
      exact .named before after hsplit (by simpa using hbefore)
  · rintro (⟨before, after, hsplit, hfirst⟩ | hnone)
    · have hfind : e.values.find? (fun v => v.2 == n) = some (text, n) :=
        List.find?_eq_some_iff_append.mpr
          ⟨beq_self_eq_true n, before, after, hsplit, by simpa using hfirst⟩
      rw [hfind]
      rfl
    · have hfind : e.values.find? (fun v => v.2 == n) = none := by simpa using hnone
      rw [hfind]
      rfl

namespace Path

/-! ## Names -/

/-- The names in a path: what stands between its dots, where it is not empty. -/
def segments (path : List Char) : List String :=
  ((path.splitOn '.').filter fun name => !name.isEmpty).map String.ofList

/-- The names in a path. -/
def names (path : String) : List String := segments path.toList

variable {p q : List Char}

@[simp] theorem segments_nil : segments [] = [] := rfl

theorem segments_append (p q : List Char) : segments (p ++ '.' :: q) = segments p ++ segments q := by
  rw [segments, List.splitOn_append_cons_self, List.filter_append, List.map_append]
  rfl

theorem segments_of_name (hdot : '.' ∉ p) (hne : p ≠ []) : segments p = [String.ofList p] := by
  rw [segments, List.splitOn_eq_singleton hdot, List.filter_cons_of_pos (by simpa using hne)]
  rfl

theorem segments_trim (p : List Char) : segments (trim p) = segments p := by
  induction p with
  | nil => rfl
  | cons c p ih =>
    by_cases hc : c = '.'
    · subst hc
      rw [trim, List.dropWhile_cons_of_pos (by rfl), show '.' :: p = [] ++ '.' :: p from rfl,
        segments_append]
      exact ih
    · rw [trim, List.dropWhile_cons_of_neg (by simpa using hc)]

/-- A path that is not blank begins with its first name, behind dots. -/
theorem trim_eq (p : List Char) :
    '.' ∉ head p ∧ (trim p = head p ∧ rest p = [] ∨ trim p = head p ++ '.' :: rest p) := by
  have hsplit := (List.takeWhile_append_dropWhile (p := (· != '.')) (l := trim p)).symm
  refine ⟨fun hdot => ?_, ?_⟩
  · simpa using List.mem_takeWhile_imp hdot
  · cases hback : (trim p).dropWhile (· != '.') with
    | nil =>
      rw [hback, List.append_nil] at hsplit
      exact .inl ⟨hsplit, by rw [rest, hback]; rfl⟩
    | cons c back =>
      have hc : c = '.' := by
        have hhead := List.head?_dropWhile_not (· != '.') (trim p)
        simpa [hback] using hhead
      have hrest : rest p = back := by rw [rest, hback]; rfl
      rw [hback, hc] at hsplit
      exact .inr (hrest ▸ hsplit)

theorem head_ne_nil (h : trim p ≠ []) : head p ≠ [] := by
  unfold head
  cases htrim : trim p with
  | nil => exact absurd htrim h
  | cons c cs =>
    have hc : c ≠ '.' := by
      have hhead := List.head?_dropWhile_not (· == '.') p
      rw [show p.dropWhile (· == '.') = c :: cs from htrim] at hhead
      simpa using hhead
    rw [List.takeWhile_cons_of_pos (by simpa using hc)]
    exact List.cons_ne_nil _ _

/-- **The names in a path**: none if there is nothing but dots, else the first name and the names of
what follows it. -/
theorem segments_eq (p : List Char) :
    segments p = if isBlank p then [] else String.ofList (head p) :: segments (rest p) := by
  have hblank : isBlank p = true ↔ trim p = [] := by
    rw [isBlank, List.all_eq_true, trim, List.dropWhile_eq_nil_iff]
  by_cases htrim : trim p = []
  · rw [if_pos (hblank.mpr htrim), ← segments_trim, htrim, segments_nil]
  · obtain ⟨hdot, hparts⟩ := trim_eq p
    have hhead := segments_of_name hdot (head_ne_nil htrim)
    rw [if_neg (fun h => htrim (hblank.mp h)), ← segments_trim]
    rcases hparts with ⟨hwhole, hrest⟩ | hsplit
    · rw [hwhole, hrest, hhead, segments_nil]
    · rw [hsplit, segments_append, hhead, List.singleton_append]

theorem isBlank_iff : isBlank p = true ↔ segments p = [] := by
  rw [segments_eq]
  split_ifs with h <;> simp [h]

theorem segments_of_not_blank (h : isBlank p = false) :
    segments p = String.ofList (head p) :: segments (rest p) := by
  rw [segments_eq, h, if_neg Bool.false_ne_true]

/-! ## Places -/

/-- What names lead to in a message. -/
inductive Place where
  /-- No declared field, or one that has neither a value nor a default. -/
  | nowhere
  /-- A single value of a field of a message of the schema, be it present or the default. -/
  | value (owner : Schema) (field : Field) (a : Atom)
  /-- A message that is the value of a field. -/
  | message (field : Field) (m : Message)
  /-- The values of a repeated field. -/
  | list (field : Field)

/-- What is read at a place; the path to it is left out of an error. -/
def Place.reading : Place → Except FilterError (Option Scalar)
  | .nowhere => .ok none
  | .value owner field a => .ok (some (a.toScalar (owner.enumType? field)))
  | .message field _ => .error (.pathEndsOnMessage "" field.fullName)
  | .list field => .error (.repeatedField field.fullName)

/-- What a name leads to. -/
def look (m : Message) (name : String) : Place :=
  match m.schema.fieldByName? name with
  | none => .nowhere
  | some field =>
    match m.get? field.number with
    | some (.message inner) => .message field inner
    | some (.list _) => .list field
    | some (.atom a) => .value m.schema field a
    | none => (field.default?.map fun a => Place.value m.schema field a).getD .nowhere

/-- What a list of names leads to: through messages as long as there are names left. -/
def place (m : Message) : List String → Place
  | [] => .nowhere
  | name :: rest =>
    match look m name with
    | .message field inner => if rest = [] then .message field inner else place inner rest
    | found => found

/-- An error without the text of the path that it quotes. -/
def withoutPath : FilterError → FilterError
  | .pathEndsOnMessage _ field => .pathEndsOnMessage "" field
  | e => e

variable {m n : Message} {f : Field} {name : String} {more : List String}

theorem place_cons_message (h : look m name = .message f n) :
    place m (name :: more) = if more = [] then .message f n else place n more := by
  rw [place, h]

theorem place_cons_of_not_message (h : ∀ f n, look m name ≠ .message f n) :
    place m (name :: more) = look m name := by
  rw [place]
  split
  · next hlook => exact absurd hlook (h _ _)
  · rfl

/-- A message that a name leads to is present under the number of the field. -/
theorem of_look_message (h : look m name = .message f n) :
    m.schema.fieldByName? name = some f ∧ m.get? f.number = some (.message n) := by
  unfold look at h
  cases hfield : m.schema.fieldByName? name with
  | none => rw [hfield] at h; cases h
  | some field =>
    rw [hfield] at h
    dsimp only at h
    cases hvalue : m.get? field.number with
    | none =>
      rw [hvalue] at h
      cases hdefault : field.default? <;> rw [hdefault] at h <;> cases h
    | some v =>
      rw [hvalue] at h
      cases v <;> cases h
      exact ⟨rfl, hvalue⟩

/-- A value that a name leads to is present under the number of the field, or it is the default and
nothing is present. -/
theorem of_look_value {s : Schema} {a : Atom} (h : look m name = .value s f a) :
    s = m.schema ∧ m.schema.fieldByName? name = some f ∧
      (m.get? f.number = some (.atom a) ∨ m.get? f.number = none ∧ f.default? = some a) := by
  unfold look at h
  cases hfield : m.schema.fieldByName? name with
  | none => rw [hfield] at h; cases h
  | some field =>
    rw [hfield] at h
    dsimp only at h
    cases hvalue : m.get? field.number with
    | none =>
      rw [hvalue] at h
      cases hdefault : field.default? <;> rw [hdefault] at h <;> cases h
      exact ⟨rfl, rfl, .inr ⟨hvalue, hdefault⟩⟩
    | some v =>
      rw [hvalue] at h
      cases v <;> cases h
      exact ⟨rfl, rfl, .inl hvalue⟩

/-- Reading a path whose first name leads to a message. -/
theorem extractChars_message (h : look m (String.ofList (head p)) = .message f n) :
    extractChars p m = if isBlank (rest p) then
      .error (.pathEndsOnMessage (String.ofList p) f.fullName) else extractChars (rest p) n := by
  obtain ⟨hfield, hvalue⟩ := of_look_message h
  rw [extractChars, hfield]
  dsimp only
  rw [hvalue]

/-- Reading a path whose first name leads to something else. -/
theorem extractChars_of_not_message (h : ∀ f n, look m (String.ofList (head p)) ≠ .message f n) :
    extractChars p m = (look m (String.ofList (head p))).reading := by
  rw [extractChars]
  unfold look at h ⊢
  cases hfield : m.schema.fieldByName? (String.ofList (head p)) with
  | none => rfl
  | some field =>
    rw [hfield] at h
    dsimp only at h ⊢
    cases hvalue : m.get? field.number with
    | none => cases hdefault : field.default? <;> rfl
    | some v =>
      cases v with
      | message inner =>
        rw [hvalue] at h
        exact absurd rfl (h _ _)
      | atom a => rfl
      | list vs => rfl

/-- No field is looked up by a blank path in a message whose fields have names. -/
theorem look_of_names_filled (h : ∀ f ∈ m.schema.fields, f.name ≠ "") : look m "" = .nowhere := by
  have hnone : m.schema.fieldByName? "" = none :=
    List.find?_eq_none.mpr fun f hf => by simpa using h f hf
  rw [look, hnone]

/-- **A path yields** what is at the place of its names. -/
theorem extractChars_eq_reading (p : List Char) (m : Message)
    (hfilled : isBlank p = true → look m "" = .nowhere) :
    (extractChars p m).mapError withoutPath = (place m (segments p)).reading := by
  cases hblank : isBlank p with
  | true =>
    have hhead : head p = [] := by
      have htrim : trim p = [] := List.dropWhile_eq_nil_iff.mpr (List.all_eq_true.mp hblank)
      rw [head, htrim]
      rfl
    have hlook : look m (String.ofList (head p)) = .nowhere := hhead ▸ hfilled hblank
    rw [extractChars_of_not_message (by simp [hlook]), hlook, isBlank_iff.mp hblank]
    rfl
  | false =>
    rw [segments_of_not_blank hblank]
    cases hlook : look m (String.ofList (head p)) with
    | message f n =>
      rw [extractChars_message hlook, place_cons_message hlook]
      cases hrest : isBlank (rest p) with
      | true =>
        rw [if_pos rfl, if_pos (isBlank_iff.mp hrest)]
        rfl
      | false =>
        have hnext : segments (rest p) ≠ [] := fun h => by
          rw [isBlank_iff.mpr h] at hrest
          cases hrest
        rw [if_neg Bool.false_ne_true, if_neg hnext]
        exact extractChars_eq_reading (rest p) n fun h => by rw [hrest] at h; cases h
    | nowhere | value | list =>
      rw [extractChars_of_not_message (by simp [hlook]), place_cons_of_not_message (by simp [hlook]),
        hlook]
      rfl
termination_by p.length
decreasing_by exact rest_length (by simp [hrest])

/-! ## One path behind another -/

theorem place_append {names more : List String} (h : place m names = .message f n)
    (hmore : more ≠ []) : place m (names ++ more) = place n more := by
  induction names generalizing m with
  | nil => cases h
  | cons name rest ih =>
    rw [List.cons_append]
    cases hlook : look m name with
    | message g inner =>
      rw [place_cons_message hlook] at h ⊢
      rw [if_neg (by simp [hmore])]
      split_ifs at h with hrest
      · cases h
        rw [hrest, List.nil_append]
      · exact ih h
    | nowhere | value | list =>
      rw [place_cons_of_not_message (by simp [hlook]), hlook] at h
      cases h

/-- The parts of a path are told by its first dot behind the first name. -/
theorem parts_of_trim {name back : List Char} (h : trim p = name ++ '.' :: back)
    (hdot : '.' ∉ name) : head p = name ∧ rest p = back := by
  have hname : ∀ c ∈ name, (c != '.') = true := fun c hc => by
    rw [bne_iff_ne]
    exact fun heq => hdot (heq ▸ hc)
  rw [head, rest, h, List.takeWhile_append_of_pos hname, List.dropWhile_append_of_pos hname]
  simp

theorem trim_append (h : isBlank p = false) (more : List Char) : trim (p ++ more) = trim p ++ more := by
  have htrim : (p.dropWhile (· == '.')).isEmpty = false := by
    rw [List.isEmpty_eq_false_iff, Ne, List.dropWhile_eq_nil_iff]
    intro hall
    rw [isBlank, List.all_eq_true.mpr hall] at h
    cases h
  rw [trim, List.dropWhile_append, htrim]
  rfl

theorem isBlank_append_of_right (hq : isBlank q = false) (p : List Char) :
    isBlank (p ++ '.' :: q) = false := by
  rw [isBlank, List.all_append, List.all_cons]
  rw [isBlank] at hq
  simp [hq]

/-- What stands behind a dot and does not end with one holds a name. -/
theorem not_blank_of_getLast? (h : ('.' :: p).getLast? ≠ some '.') :
    isBlank p = false ∧ p.getLast? ≠ some '.' := by
  cases p with
  | nil => exact absurd rfl h
  | cons c cs =>
    rw [List.getLast?_cons_cons] at h
    refine ⟨Bool.eq_false_iff.mpr fun hblank => h ?_, h⟩
    have hlast := List.getLast_mem (List.cons_ne_nil c cs)
    rw [List.getLast?_eq_some_getLast (List.cons_ne_nil c cs),
      eq_of_beq (List.all_eq_true.mp hblank _ hlast)]

/-- **A path behind another one** that leads to a message is read there, just as it stands, if the
first one does not end with a dot. -/
theorem extractChars_append (p q : List Char) (m : Message)
    (hplace : place m (segments p) = .message f n) (hend : p.getLast? ≠ some '.')
    (hq : isBlank q = false) : extractChars (p ++ '.' :: q) m = extractChars q n := by
  have hblank : isBlank p = false := by
    rw [Bool.eq_false_iff]
    intro h
    rw [isBlank_iff.mp h] at hplace
    cases hplace
  rw [segments_of_not_blank hblank] at hplace
  obtain ⟨hdot, hparts⟩ := trim_eq p
  have htrim := trim_append hblank ('.' :: q)
  cases hlook : look m (String.ofList (head p)) with
  | message g inner =>
    rw [place_cons_message hlook] at hplace
    rcases hparts with ⟨hwhole, hrest⟩ | hsplit
    · rw [hrest, segments_nil, if_pos rfl] at hplace
      cases hplace
      rw [hwhole] at htrim
      obtain ⟨hhead, hback⟩ := parts_of_trim htrim hdot
      rw [extractChars_message (hhead ▸ hlook), hback, hq, if_neg Bool.false_ne_true]
    · rw [hsplit, List.append_assoc, List.cons_append] at htrim
      obtain ⟨hhead, hback⟩ := parts_of_trim htrim hdot
      -- the last character of the path stands behind its first dot
      obtain ⟨front, hfront⟩ := List.dropWhile_suffix (l := p) (· == '.')
      have hlast : ('.' :: rest p).getLast? ≠ some '.' := by
        rw [← hfront, show p.dropWhile (· == '.') = _ from hsplit, ← List.append_assoc,
          List.getLast?_append_of_ne_nil _ (List.cons_ne_nil _ _)] at hend
        exact hend
      obtain ⟨hrest, hlast⟩ := not_blank_of_getLast? hlast
      have hnext : segments (rest p) ≠ [] := fun h => by
        rw [isBlank_iff.mpr h] at hrest
        cases hrest
      rw [if_neg hnext] at hplace
      rw [extractChars_message (hhead ▸ hlook), hback, isBlank_append_of_right hq,
        if_neg Bool.false_ne_true]
      exact extractChars_append (rest p) q inner hplace hlast hq
  | nowhere | value | list =>
    rw [place_cons_of_not_message (by simp [hlook]), hlook] at hplace
    cases hplace
termination_by p.length
decreasing_by exact rest_length (by simp [hrest])

theorem names_append (path more : String) :
    names (path ++ "." ++ more) = names path ++ names more := by
  simp only [names, String.toList_append, List.append_assoc]
  exact segments_append path.toList more.toList

example : names "..inner..id." = ["inner", "id"] := by rfl

/-- **Reading a path** in a message whose fields have names.  What is read depends on the names in
the path alone, as far as it is not the text of the path that an error quotes; and further dots add no
names.  A number of an enumeration is read as its first declared name, else as its digits.  Behind a
path that leads to a message, a path that has a name in it is read in that message; one without a
name is refused there. -/
theorem extract_reads_names (m : Message) (hfilled : ∀ f ∈ m.schema.fields, f.name ≠ "") :
    (∀ path, (extract path m).mapError withoutPath = (place m (names path)).reading) ∧
    (∀ path more, names (path ++ "." ++ more) = names path ++ names more) ∧
    (∀ (e : EnumType) (number : Int32) (text : String),
      (Atom.enumNumber number).toScalar (some e) = .string text ↔ e.Shows number text) ∧
    ∀ (path : String) (f : Field) (n : Message), place m (names path) = .message f n →
      ∀ more : String,
        (names more ≠ [] →
          (extract (path ++ "." ++ more) m).mapError withoutPath =
            (extract more n).mapError withoutPath ∧
          (path.toList.getLast? ≠ some '.' → extract (path ++ "." ++ more) m = extract more n)) ∧
        (names more = [] → (extract (path ++ "." ++ more) m).mapError withoutPath =
          .error (.pathEndsOnMessage "" f.fullName)) := by
  have hreads : ∀ path, (extract path m).mapError withoutPath = (place m (names path)).reading :=
    fun path => extractChars_eq_reading path.toList m fun _ => look_of_names_filled hfilled
  refine ⟨hreads, names_append, fun _ _ _ => Atom.toScalar_enumNumber,
    fun path f n hplace more => ⟨fun hmore => ?_, fun hmore => ?_⟩⟩
  · have hblank : isBlank more.toList = false := Bool.eq_false_iff.mpr fun h => hmore (isBlank_iff.mp h)
    refine ⟨?_, fun hend => ?_⟩
    · rw [hreads, names_append, place_append hplace hmore]
      exact (extractChars_eq_reading more.toList n fun h => by rw [hblank] at h; cases h).symm
    · rw [extract, String.toList_append, String.toList_append, List.append_assoc]
      exact extractChars_append path.toList more.toList m hplace hend hblank
  · rw [hreads, names_append, hmore, List.append_nil, hplace]
    rfl

/-- An empty message. -/
def probeBlank : Message := ⟨Message.probeSchema, []⟩

/-- A number and an empty message. -/
def probeInner : Message := ⟨Message.probeSchema, [(1, .atom (.i64 7)), (3, .message probeBlank)]⟩

/-- A number and a message that has a number and an empty message. -/
def probeOuter : Message := ⟨Message.probeSchema, [(1, .atom (.i64 5)), (3, .message probeInner)]⟩

/-- The field of a message of the own type. -/
def probeField : Field := ⟨"inner", "demo.Probe.inner", 3, .message 0, false, none⟩

theorem probeSchema_names_filled : ∀ f ∈ Message.probeSchema.fields, f.name ≠ "" := by
  show ∀ f ∈ _, _
  decide

/-- A path with many dots to a message, and behind it the number in there; without a name behind it
the message itself is refused. -/
theorem extract_reads_names_probe :
    Message.decode Message.probeSchema [8, 5, 26, 4, 8, 7, 26, 0] = .ok probeOuter ∧
    place probeOuter (names "..inner") = .message probeField probeInner ∧
    names ".id." ≠ [] ∧ "..inner".toList.getLast? ≠ some '.' ∧ names ".." = [] ∧
    extract ("..inner" ++ "." ++ ".id.") probeOuter = .ok (some (.long 7)) ∧
    (extract ("..inner" ++ "." ++ "..") probeOuter).mapError withoutPath =
      .error (.pathEndsOnMessage "" "demo.Probe.inner") := by
  have hplace : place probeOuter (names "..inner") = .message probeField probeInner := by rfl
  have hnames : names ".id." ≠ [] := by
    rw [show names ".id." = ["id"] by rfl]
    decide
  have hend : "..inner".toList.getLast? ≠ some '.' := by decide
  have hdots : names ".." = [] := by rfl
  obtain ⟨-, -, -, hbehind⟩ := extract_reads_names probeOuter probeSchema_names_filled
  obtain ⟨hname, hnone⟩ := hbehind "..inner" probeField probeInner hplace ".id."
  have hvalue : extract ".id." probeInner = .ok (some (.long 7)) := by decide +kernel
  exact ⟨rfl, hplace, hnames, hend, hdots, ((hname hnames).2 hend).trans hvalue,
    (hbehind "..inner" probeField probeInner hplace "..").2 hdots⟩

/-- A path leads to a message.  With a dot and nothing more behind it, the path ends on the message
and is refused, but in that message itself nothing is looked up and nothing is refused. -/
theorem extract_inside_itself :
    Message.probePool.Reachable ∧ (∀ f ∈ Message.probeSchema.fields, f.name ≠ "") ∧
    Message.decode Message.probeSchema [8, 5, 26, 4, 8, 7, 26, 0] = .ok probeOuter ∧
    place probeOuter (names "inner") = .message probeField probeInner ∧
    extract ("inner" ++ "." ++ "") probeOuter =
      .error (.pathEndsOnMessage "inner." "demo.Probe.inner") ∧
    extract "" probeInner = .ok none :=
  ⟨Message.probePool_reachable, probeSchema_names_filled, rfl, by rfl, by decide +kernel,
    by decide +kernel⟩

end Path

end CellFilter
