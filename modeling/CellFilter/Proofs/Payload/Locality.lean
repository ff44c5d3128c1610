import CellFilter.Cache.Key
import CellFilter.Proofs.Payload.RoundTrip

/-!
# A payload rests on imports alone

What a payload holds is determined by the units that the unit of its schema rests on.  Every step of
the way looks at a pool through the names of these units: the walk that finds them, their order, and
the tree they are laid out in.  So pools that share them yield the same payload, whatever else they
hold and in whatever order it was added.

* `Walk.ofStarts_congr`: a walk depends on what is next to the names it comes to, not on how deep it
  may go.
* `SchemaPool.Shares`: a pool holds all that a unit of another pool rests on.
* `closure_eq_of_shares`, `layOut_eq_of_shares`: the closure and the tree of such a unit.
* `body_eq_of_shares`: **the payload** of a schema before it is compressed.
* `key_eq_of_shares`: **the key** of a schema does not depend on further units.
-/

namespace CellFilter

open Outcome Relation

namespace Walk

variable {next next' : String → List String} {U : List String}

theorem foldl_congr {visit visit' : Walk → String → Walk} (depth : Nat)
    (hvisit : ∀ w a, a ∈ U → missing U w ≤ depth →
      ∃ new done, Grows next [a] w (visit w a) new done)
    (hsame : ∀ w a, a ∈ U → missing U w ≤ depth → visit w a = visit' w a) :
    ∀ (l : List String) (w : Walk), (∀ a ∈ l, a ∈ U) → missing U w ≤ depth →
      l.foldl visit w = l.foldl visit' w
  | [], _, _, _ => rfl
  | a :: rest, w, hl, hd => by
    have ha := hl a List.mem_cons_self
    obtain ⟨new, done, h⟩ := hvisit w a ha hd
    have hd' : missing U (visit w a) ≤ depth := le_trans (missing_mono fun b => h.mono) hd
    rw [List.foldl_cons, List.foldl_cons, ← hsame w a ha hd]
    exact foldl_congr depth hvisit hsame rest _ (fun b hb => hl b (List.mem_cons_of_mem a hb)) hd'

/-- Two visits that may both go as deep as there are names left do the same. -/
theorem visit_congr (hU : ∀ a ∈ U, ∀ b ∈ next a, b ∈ U) (hnext : ∀ a ∈ U, next a = next' a) :
    ∀ (depth depth' : Nat) (w : Walk) (a : String), a ∈ U → missing U w ≤ depth →
      missing U w ≤ depth' → visit next depth w a = visit next' depth' w a := by
  -- no depth is left only when no name is missing
  have hstop : ∀ (next : String → List String) (depth : Nat) (w : Walk) (a : String), a ∈ U →
      missing U w ≤ 0 → visit next depth w a = w := by
    intro next depth w a ha hd
    have hknown : a ∈ w.discovered := by
      by_contra hnew
      exact absurd (missing_enter ha hnew) (by omega)
    cases depth with
    | zero => rfl
    | succ depth => rw [visit, if_pos (by simpa using hknown)]
  intro depth
  induction depth with
  | zero =>
    intro depth' w a ha hd _
    rw [hstop next 0 w a ha hd, hstop next' depth' w a ha hd]
  | succ depth ih =>
    intro depth' w a ha hd hd'
    cases depth' with
    | zero => rw [hstop next _ w a ha hd', hstop next' 0 w a ha hd']
    | succ depth' =>
      rw [visit, visit]
      by_cases hknown : w.discovered.contains a = true
      · rw [if_pos hknown, if_pos hknown]
      · have hnew : a ∉ w.discovered := by simpa using hknown
        have hless := missing_enter ha hnew
        have hrest := foldl_congr (min depth depth')
          (fun w a ha hd => visit_grows hU depth w a ha (by omega))
          (fun w a ha hd => ih depth' w a ha (by omega) (by omega)) (next a)
          ⟨a :: w.discovered, w.finished⟩ (hU a ha) (by omega)
        rw [if_neg hknown, if_neg hknown]
        dsimp only
        rw [hrest, hnext a ha]

/-- **A walk** depends on what is next to the names that it comes to. -/
theorem ofStarts_congr (hU : ∀ a ∈ U, ∀ b ∈ next a, b ∈ U) (hnext : ∀ a ∈ U, next a = next' a)
    {starts : List String} (hstarts : ∀ a ∈ starts, a ∈ U) {depth depth' : Nat}
    (hdepth : U.length ≤ depth) (hdepth' : U.length ≤ depth') :
    ofStarts next depth starts = ofStarts next' depth' starts := by
  refine foldl_congr (min depth depth')
    (fun w a ha hd => visit_grows hU depth w a ha (by omega))
    (fun w a ha hd => visit_congr hU hnext depth depth' w a ha (by omega) (by omega)) starts empty
    hstarts (le_trans missing_empty_le (by omega))

end Walk

/-! ## The units of two pools -/

namespace SchemaPool

variable {P Q : SchemaPool} {unit other : FileDescriptor}

/-- Everything that a unit of one pool rests on is also in the other pool. -/
def Shares (P Q : SchemaPool) (unit : FileDescriptor) : Prop :=
  ∀ u, ReflTransGen P.Imports unit u → Q.file? u.name = some u

namespace Shares

theorem of_reaches (h : Shares P Q unit) (hr : ReflTransGen P.Imports unit other) :
    Shares P Q other := fun u hu => h u (hr.trans hu)

theorem mem (h : Shares P Q unit) : unit ∈ Q.files := List.mem_of_find?_eq_some (h unit .refl)

theorem imports (h : Shares P Q unit) (hi : P.Imports unit other) : Q.Imports unit other :=
  ⟨h.mem, (h.of_reaches (.single hi)).mem, hi.2.2⟩

theorem file?_eq (h : Shares P Q unit) (hP : P.Built) {name : String}
    (hu : unit ∈ P.files) (hd : name ∈ unit.dependencies) : Q.file? name = P.file? name := by
  obtain ⟨other, hi, rfl⟩ := hP.exists_dependency hu hd
  rw [h other (.single hi), hP.file?_eq_some.mpr ⟨hi.2.1, rfl⟩]

end Shares

/-- **The closure** of a unit, in any pool that holds what the unit rests on. -/
theorem closure_eq_of_shares (hP : P.Built) (hu : unit ∈ P.files) (h : Shares P Q unit) :
    Q.closure unit.name = P.closure unit.name := by
  obtain ⟨units, -, hnodup, hunits⟩ := hP.closure_eq hu
  have hmem : ∀ u ∈ units, u ∈ P.files := fun u hm =>
    Imports.mem_of_reaches ((hunits u).mp hm) hu
  -- the names that the walk may come to
  have hU : ∀ a ∈ units.map FileDescriptor.name, ∀ b ∈ P.dependenciesOf a,
      b ∈ units.map FileDescriptor.name := by
    intro a ha b hb
    obtain ⟨u, hm, rfl⟩ := List.mem_map.mp ha
    rw [hP.dependenciesOf_eq (hmem u hm)] at hb
    obtain ⟨v, hi, rfl⟩ := hP.exists_dependency (hmem u hm) hb
    exact List.mem_map_of_mem ((hunits v).mpr (((hunits u).mp hm).tail hi))
  have hfile : ∀ a ∈ units.map FileDescriptor.name, Q.file? a = P.file? a := by
    intro a ha
    obtain ⟨u, hm, rfl⟩ := List.mem_map.mp ha
    rw [h u ((hunits u).mp hm), hP.file?_eq_some.mpr ⟨hmem u hm, rfl⟩]
  have hnext : ∀ a ∈ units.map FileDescriptor.name, P.dependenciesOf a = Q.dependenciesOf a := by
    intro a ha
    rw [dependenciesOf, dependenciesOf, hfile a ha]
  have hstart : ∀ a ∈ [unit.name], a ∈ units.map FileDescriptor.name := by
    intro a ha
    rw [List.mem_singleton.mp ha]
    exact List.mem_map_of_mem ((hunits unit).mpr .refl)
  have hlength : ∀ pool : SchemaPool, (∀ u ∈ units, u ∈ pool.files) →
      (units.map FileDescriptor.name).length ≤ pool.files.length + 1 := by
    intro pool hin
    rw [List.length_map]
    exact (List.subperm_of_subset hnodup.of_map hin).length_le.trans (Nat.le_succ _)
  have hQ : ∀ u ∈ units, u ∈ Q.files := fun u hm => (h.of_reaches ((hunits u).mp hm)).mem
  have hwalk := Walk.ofStarts_congr hU hnext hstart (hlength P hmem) (hlength Q hQ)
  have hfound := (Walk.ofStarts_discovered hU hstart (hlength P hmem)).2
  unfold closure
  dsimp only
  rw [← hwalk]
  refine mapM_congr fun name hn => ?_
  obtain ⟨a, ha, hr⟩ := (hfound name).mp (List.mem_reverse.mp hn)
  rw [List.mem_singleton.mp ha] at hr
  obtain ⟨u, hreached, rfl⟩ := (hP.leads_iff hu).mp hr
  rw [hfile _ (List.mem_map_of_mem ((hunits u).mpr hreached))]

theorem place_lt (P : SchemaPool) (name : String) : P.place name < P.files.length + 1 := by
  have hle := List.idxOf_le_length (l := P.files.map FileDescriptor.name) (a := name)
  rw [List.length_map] at hle
  exact Nat.lt_succ_of_le hle

end SchemaPool

namespace UnitTree

open SchemaPool

variable {P Q : SchemaPool} {unit : FileDescriptor} {order : List String}

theorem directDependencies_eq_of_shares (hP : P.Built) (hu : unit ∈ P.files)
    (h : Shares P Q unit) : directDependencies Q unit = directDependencies P unit :=
  mapM_congr fun name hd => by rw [h.file?_eq hP hu hd]

/-- **The tree** of a unit, in any pool that holds what the unit rests on. -/
theorem layOut_eq_of_shares (hP : P.Built) (hQ : Q.Built) : ∀ {depth depth' : Nat}
    {unit : FileDescriptor}, unit ∈ P.files → Shares P Q unit → P.place unit.name < depth →
      Q.place unit.name < depth' → layOut Q order depth' unit = layOut P order depth unit
  | 0, _, _, _, _, hdepth, _ => absurd hdepth (Nat.not_lt_zero _)
  | _ + 1, 0, _, _, _, _, hdepth' => absurd hdepth' (Nat.not_lt_zero _)
  | depth + 1, depth' + 1, unit, hu, h, hdepth, hdepth' => by
    funext known
    by_cases hknown : unit.name ∈ known
    · rw [layOut_of_known hknown, layOut_of_known hknown]
    · obtain ⟨found, hfound, himports⟩ := directDependencies_eq_ok hP hu
      have hfound' := (directDependencies_eq_of_shares hP hu h).trans hfound
      rw [layOut_of_new hknown hfound, layOut_of_new hknown hfound']
      have hbelow : (sortByRank order found).mapM (layOut Q order depth') =
          (sortByRank order found).mapM (layOut P order depth) := by
        refine mapM_congr fun w hw => ?_
        have hi : P.Imports unit w := (himports w).mpr (List.mem_mergeSort.mp hw)
        have hless := hP.place_lt hi
        have hless' := hQ.place_lt (h.imports hi)
        exact layOut_eq_of_shares hP hQ hi.2.1 (h.of_reaches (.single hi)) (by omega) (by omega)
      rw [hbelow]

theorem ofUnit_eq_of_shares (hP : P.Built) (hQ : Q.Built) (hu : unit ∈ P.files)
    (h : Shares P Q unit) : ofUnit Q unit = ofUnit P unit := by
  obtain ⟨units, order, hclosure, horder⟩ := hP.order_eq_ok hu
  have hlaid : layOut Q (order.map FileDescriptor.name) (Q.files.length + 1) unit =
      layOut P (order.map FileDescriptor.name) (P.files.length + 1) unit :=
    layOut_eq_of_shares hP hQ hu h (P.place_lt _) (Q.place_lt _)
  rw [ofUnit, closure_eq_of_shares hP hu h, hclosure, ok_bind, horder, ok_bind, hlaid, ofUnit,
    hclosure, ok_bind, horder, ok_bind]

/-- Units are laid out whatever is known. -/
theorem exists_layOut (hP : P.Built) : ∀ (depth : Nat) (unit : FileDescriptor)
    (known : List String), unit ∈ P.files → ∃ laid, layOut P order depth unit known = .ok laid
  | 0, unit, known, _ => ⟨_, rfl⟩
  | depth + 1, unit, known, hu => by
    by_cases hknown : unit.name ∈ known
    · exact ⟨_, layOut_of_known hknown⟩
    · obtain ⟨found, hfound, himports⟩ := directDependencies_eq_ok hP hu
      have hall : ∀ (us : List FileDescriptor) (known : List String), (∀ u ∈ us, u ∈ P.files) →
          ∃ laid, us.mapM (layOut P order depth) known = .ok laid := by
        intro us
        induction us with
        | nil => exact fun known _ => ⟨_, rfl⟩
        | cons u us ih =>
          intro known hus
          obtain ⟨first, hfirst⟩ := exists_layOut hP depth u known (hus u List.mem_cons_self)
          obtain ⟨rest, hrest⟩ := ih first.2 fun v hv => hus v (List.mem_cons_of_mem u hv)
          exact ⟨(first.1 :: rest.1, rest.2), mapM_cons_eq_ok hfirst hrest⟩
      obtain ⟨laid, hlaid⟩ := hall (sortByRank order found) (unit.name :: known) fun w hw =>
        ((himports w).mpr (List.mem_mergeSort.mp hw)).2.1
      exact ⟨_, by rw [layOut_of_new hknown hfound, hlaid]; rfl⟩

theorem exists_ofUnit (hP : P.Built) (hu : unit ∈ P.files) : ∃ tree, ofUnit P unit = .ok tree := by
  obtain ⟨units, order, hclosure, horder⟩ := hP.order_eq_ok hu
  obtain ⟨laid, hlaid⟩ := exists_layOut hP (P.files.length + 1) unit [] hu
  refine ⟨laid.1, ?_⟩
  rw [ofUnit, hclosure, ok_bind, horder, ok_bind, hlaid]
  rfl

end UnitTree

/-! ## Payloads -/

namespace Schema

variable {s t : Schema}

/-- A message refers to no other type if none of its declared fields has to. -/
theorem isSelfContained_iff (hs : s.pool.Built) : s.isSelfContained = true ↔
    ∀ field ∈ s.declaration.fields, field.plain? ≠ none := by
  refine ⟨fun h field hfield => plain?_ne_none hs h hfield, fun h => ?_⟩
  obtain ⟨-, -, hfields⟩ := exists_declared hs
  refine List.all_eq_true.mpr fun f hf => ?_
  obtain ⟨field, hfield, hmade⟩ := forall₂_right_mem (mapM_eq_ok_iff.mp hfields) f hf
  obtain ⟨kind, default?, hkind, -, -, rfl⟩ := SchemaPool.resolveField_eq_ok.mp hmade
  rcases SchemaPool.fieldKind_eq_ok.mp hkind with hplain | ⟨ref, hsuits, -, -⟩
  · obtain ⟨code, -, hcode⟩ := Option.bind_eq_some_iff.mp hplain
    simp [SchemaPool.plainKind?_not_reference hcode]
  · exact absurd (SchemaPool.plain?_eq_none_of_suits hsuits) (h field hfield)

theorem isSelfContained_congr (hs : s.pool.Built) (ht : t.pool.Built)
    (h : t.declaration.fields = s.declaration.fields) : t.isSelfContained = s.isSelfContained := by
  rw [Bool.eq_iff_iff, isSelfContained_iff ht, isSelfContained_iff hs, h]

end Schema

namespace Payload

variable {s t : Schema}

theorem exists_body (hs : s.pool.Built) : ∃ raw, body s = .ok raw := by
  obtain ⟨hfile, -, -⟩ := Schema.exists_declared hs
  obtain ⟨tree, htree⟩ := UnitTree.exists_ofUnit hs (List.mem_of_getElem? hfile)
  cases hself : s.isSelfContained with
  | true => exact ⟨_, by rw [body, if_pos hself]; rfl⟩
  | false => exact ⟨_, by rw [body, if_neg (Bool.eq_false_iff.mp hself), htree]; rfl⟩

/-- **A payload** is a function of what the unit of the schema rests on. -/
theorem body_eq_of_shares (hs : s.pool.Built) (ht : t.pool.Built) (hname : s.fullName = t.fullName)
    (h : SchemaPool.Shares s.pool t.pool s.file) : body t = body s := by
  obtain ⟨hplace, -, -⟩ := Schema.exists_declared hs
  have hmem := List.mem_of_getElem? hplace
  obtain ⟨hfile, hdecl⟩ := Schema.declaration_eq_of_mem ht hs h.mem hname.symm
  have hself := Schema.isSelfContained_congr hs ht (congrArg MessageDescriptor.fields hdecl)
  have hlifted : t.liftedName = s.liftedName := by
    rw [Schema.liftedName, Schema.liftedName, hfile, hdecl]
  have halone : t.standalone = s.standalone := by
    rw [Schema.standalone, Schema.standalone, hfile, hdecl]
  have htree := UnitTree.ofUnit_eq_of_shares hs ht hmem h
  rw [body, body, hself, hlifted, halone, hfile, htree, hname]

/-- The key of a schema whose payload is compressed at a level. -/
def key (level : Nat) (s : Schema) : Except FilterError SchemaKey :=
  (encode level s).map fun payload => ⟨s.fullName, .of payload⟩

/-- Schemas of one name with the same payload have the same key. -/
theorem exists_key (level : Nat) (hs : s.pool.Built) (hname : s.fullName = t.fullName)
    (hbody : body t = body s) : ∃ payload, encode level s = .ok payload ∧
      encode level t = .ok payload ∧ key level s = .ok ⟨s.fullName, .of payload⟩ ∧
        key level t = .ok ⟨s.fullName, .of payload⟩ := by
  obtain ⟨raw, hraw⟩ := exists_body hs
  have hencode : encode level s = .ok (Gzip.compress raw level) := by
    rw [encode, hraw]
    rfl
  have hencode' : encode level t = .ok (Gzip.compress raw level) := by
    rw [encode, hbody, hraw]
    rfl
  exact ⟨_, hencode, hencode', by rw [key, hencode]; rfl, by rw [key, hencode', hname]; rfl⟩

/-- **The key of a schema** does not depend on what else its pool holds: any pool with the units
that the unit of the schema rests on leads to the same payload, hash and key. -/
theorem key_eq_of_shares (hs : s.pool.Reachable) (ht : t.pool.Reachable)
    (hname : s.fullName = t.fullName)
    (hunits : ∀ u, ReflTransGen s.pool.Imports s.file u → t.pool.file? u.name = some u) :
    (∃ raw, body s = .ok raw ∧ body t = .ok raw) ∧ ∀ level, ∃ payload,
      encode level s = .ok payload ∧ encode level t = .ok payload ∧
        key level s = .ok ⟨s.fullName, .of payload⟩ ∧
          key level t = .ok ⟨s.fullName, .of payload⟩ := by
  have hbody : body t = body s := body_eq_of_shares hs.built ht.built hname hunits
  obtain ⟨raw, hraw⟩ := exists_body hs.built
  exact ⟨⟨raw, hraw, hbody.trans hraw⟩, fun level => exists_key level hs.built hname hbody⟩

/-! ### The same two units behind a third one -/

/-- A unit that has nothing to do with the others. -/
def strayUnit : FileDescriptor where
  name? := some "stray.proto"
  package? := some "other"
  dependencies := []
  messages := [⟨some "Stray", [], [], [], []⟩]
  enums := []
  carried := []

/-- The pool in which that unit comes first. -/
def widePool : SchemaPool where
  files := [strayUnit, Schema.baseUnit, Schema.topUnit ["base.proto"]]
  messages :=
    [⟨"other.Stray", 0, [0], []⟩, ⟨"demo.Base", 1, [0], []⟩,
      ⟨"demo.Top", 2, [0], [⟨"base", "demo.Top.base", 1, .message 1, false, none⟩]⟩]
  enums := []
  types := [("demo.Top", .message 2), ("demo.Base", .message 1), ("other.Stray", .message 0)]

/-- The message of the last unit. -/
def wideSchema : Schema := ⟨widePool, 2, by decide⟩

theorem widePool_reachable : widePool.Reachable := by
  have hstray : SchemaPool.empty.addFile strayUnit = .ok ⟨[strayUnit],
      [⟨"other.Stray", 0, [0], []⟩], [], [("other.Stray", .message 0)]⟩ := by rfl
  have hbase : SchemaPool.addFile ⟨[strayUnit], [⟨"other.Stray", 0, [0], []⟩], [],
      [("other.Stray", .message 0)]⟩ Schema.baseUnit = .ok ⟨[strayUnit, Schema.baseUnit],
        [⟨"other.Stray", 0, [0], []⟩, ⟨"demo.Base", 1, [0], []⟩], [],
        [("demo.Base", .message 1), ("other.Stray", .message 0)]⟩ := by rfl
  have htop : SchemaPool.addFile ⟨[strayUnit, Schema.baseUnit],
      [⟨"other.Stray", 0, [0], []⟩, ⟨"demo.Base", 1, [0], []⟩], [],
      [("demo.Base", .message 1), ("other.Stray", .message 0)]⟩ (Schema.topUnit ["base.proto"]) =
        .ok widePool := by rfl
  exact .add (.add (.add .empty hstray) hbase) htop

theorem widePool_shares {u : FileDescriptor}
    (hr : ReflTransGen (Schema.topPool ["base.proto"]).Imports
      (Schema.topSchema ["base.proto"]).file u) : widePool.file? u.name = some u := by
  rcases topUnit_reaches hr with rfl | rfl
  · rfl
  · rfl

theorem key_eq_wideSchema : (Schema.topPool ["base.proto"]).Reachable ∧ widePool.Reachable ∧
    (Schema.topSchema ["base.proto"]).fullName = wideSchema.fullName ∧
    (Schema.topPool ["base.proto"]).Shares widePool (Schema.topUnit ["base.proto"]) ∧
      ∃ k, key 6 (Schema.topSchema ["base.proto"]) = .ok k ∧ key 6 wideSchema = .ok k := by
  obtain ⟨-, hkeys⟩ := key_eq_of_shares (s := Schema.topSchema ["base.proto"]) (t := wideSchema)
    Schema.topPool_reachable widePool_reachable rfl fun u => widePool_shares
  obtain ⟨payload, -, -, hkey, hkey'⟩ := hkeys 6
  exact ⟨Schema.topPool_reachable, widePool_reachable, rfl, fun u => widePool_shares, _, hkey,
    hkey'⟩

end Payload

end CellFilter
