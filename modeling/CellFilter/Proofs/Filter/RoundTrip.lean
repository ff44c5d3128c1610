import CellFilter.Filter.Encoding
import CellFilter.Proofs.Filter.Bundling
import CellFilter.Proofs.Gzip.Lossless
import CellFilter.Proofs.Predicate.RoundTrip

/-!
# Groups read back

A group that was written as it is reads back with its bundle handed out, as far as its comparators
can be built and its groups are not nested too deeply.

* `Bundle.lastPayload?`, `Bundle.get?_reread`: a bundle reads back with the last payload of each name
  that is not empty.
* `Filter.depth`, `Filter.Fits`: the levels of groups and the room that a tree takes.
* `Filter.rebuild`: what reading a tree comes to, with any registry of comparators.
* `PredicateGroup.decode_frame`: decoding in these terms.
-/

namespace CellFilter

open Outcome

namespace Bundle

/-- What reading the entries of a bundle one by one makes of them. -/
def reread (bundle : Bundle) : Bundle :=
  bundle.entries.foldl
    (fun bundle e => if e.2.isEmpty then bundle else bundle.insert e.1 e.2) .empty

/-- Whether an entry has a payload for a name. -/
def Counts (name : String) (e : String × Bytes) : Prop := e.1 = name ∧ e.2 ≠ []

instance (name : String) (e : String × Bytes) : Decidable (Counts name e) :=
  inferInstanceAs (Decidable (e.1 = name ∧ e.2 ≠ []))

/-- The payload that a bundle has for a name: the last one that is not empty. -/
def lastPayload? (bundle : Bundle) (name : String) : Option Bytes :=
  (bundle.entries.filter fun e => Counts name e).getLast?.map Prod.snd

variable {name : String} {first : String × Bytes} {entries : List (String × Bytes)}

theorem lastPayload?_cons : lastPayload? ⟨first :: entries⟩ name =
    if Counts name first then (lastPayload? ⟨entries⟩ name).or (some first.2)
    else lastPayload? ⟨entries⟩ name := by
  unfold lastPayload?
  split_ifs with h
  · rw [List.filter_cons_of_pos (by simpa using h), List.getLast?_cons]
    cases (entries.filter fun e => Counts name e).getLast? <;> rfl
  · rw [List.filter_cons_of_neg (by simpa using h)]

theorem lastPayload?_ne_nil {bundle : Bundle} {payload : Bytes}
    (h : bundle.lastPayload? name = some payload) : payload ≠ [] := by
  obtain ⟨e, he, rfl⟩ := Option.map_eq_some_iff.mp h
  have hcounts := (List.mem_filter.mp (List.mem_of_getLast? he)).2
  exact (of_decide_eq_true hcounts : Counts name e).2

/-- **The entries read one by one**, whatever they are, leave the last payload of each name. -/
theorem get?_reread_eq_last (bundle : Bundle) (name : String) :
    bundle.reread.get? name = bundle.lastPayload? name := by
  suffices h : ∀ (entries : List (String × Bytes)) (before : Bundle),
      (entries.foldl (fun b e => if e.2.isEmpty then b else b.insert e.1 e.2) before).get? name =
        (lastPayload? ⟨entries⟩ name).or (before.get? name) from
    (h bundle.entries .empty).trans (Option.or_none ..)
  intro entries
  induction entries with
  | nil => exact fun before => rfl
  | cons first entries ih =>
    intro before
    rw [List.foldl_cons, ih, lastPayload?_cons]
    by_cases hempty : first.2 = []
    · have hnot : ¬ Counts name first := fun h => h.2 hempty
      rw [if_neg hnot, if_pos (List.isEmpty_iff.mpr hempty)]
    · rw [if_neg (mt List.isEmpty_iff.mp hempty), get?_insert]
      by_cases hname : name = first.1
      · rw [if_pos hname, if_pos ⟨hname.symm, hempty⟩, Option.or_assoc, Option.some_or]
      · have hnot : ¬ Counts name first := fun h => hname h.1.symm
        rw [if_neg hname, if_neg hnot]

theorem lastPayload?_of_nodup (hnodup : (entries.map Prod.fst).Nodup) (name : String) :
    lastPayload? ⟨entries⟩ name = (entries.lookup name).filter fun b => !b.isEmpty := by
  induction entries with
  | nil => rfl
  | cons first rest ih =>
    obtain ⟨n, payload⟩ := first
    obtain ⟨hn, hrest⟩ := List.nodup_cons.mp hnodup
    rw [lastPayload?_cons, ih hrest, lookup_cons]
    by_cases hname : name = n
    · subst hname
      rw [if_pos rfl, lookup_eq_none_iff.mpr hn]
      by_cases hempty : payload = [] <;> simp [Counts, hempty, Option.filter]
    · have hnot : ¬ Counts name (n, payload) := fun h => hname h.1.symm
      rw [if_neg hname, if_neg hnot]

/-- **A bundle** reads back without its empty payloads. -/
theorem get?_reread {bundle : Bundle} (h : bundle.names.Nodup) (name : String) :
    bundle.reread.get? name = (bundle.get? name).filter fun b => !b.isEmpty :=
  (get?_reread_eq_last bundle name).trans (lastPayload?_of_nodup h name)

/-- The bytes of an entry. -/
def putEntry (e : String × Bytes) : Bytes := Frame.putText e.1 ++ Frame.putBytes e.2

theorem length_putEntries (entries : List (String × Bytes)) :
    entries.length ≤ (entries.flatMap putEntry).length ∧
      ∀ e ∈ entries, (putEntry e).length ≤ (entries.flatMap putEntry).length := by
  induction entries with
  | nil => simp
  | cons first rest ih =>
    have hname := List.length_pos_iff.mpr (Varint.encode_ne_nil (Utf8.encode first.1).length)
    have hfirst : 0 < (putEntry first).length := by
      simp only [putEntry, Frame.putText, Frame.putBytes, List.length_append]
      omega
    rw [List.flatMap_cons, List.length_append, List.length_cons]
    refine ⟨by omega, fun e he => ?_⟩
    rcases List.mem_cons.mp he with rfl | he
    · omega
    · have hrest := ih.2 e he
      omega

/-- Reads the entries of a bundle as they come. -/
def readWritten : Reader Bundle := do
  return ⟨← Frame.many (← Frame.length) readEntry⟩

theorem read_eq_reread : read = do return (← readWritten).reread := by
  simp only [read, readWritten, bind_assoc, pure_bind]
  rfl

theorem reads_written {bundle : Bundle} (h : bundle.encode.length < UInt64.size) :
    Reads readWritten bundle.encode bundle := by
  obtain ⟨hcount, hroom⟩ := length_putEntries bundle.entries
  have hlen : bundle.encode = Varint.encode bundle.entries.length ++
    bundle.entries.flatMap putEntry := rfl
  rw [hlen, List.length_append] at h
  have hentry : ∀ e ∈ bundle.entries, Reads readEntry (putEntry e) e := by
    intro e he
    have hput := hroom e he
    simp only [putEntry, List.length_append] at hput
    have hname : Reads Frame.text (Frame.putText e.1) e.1 := Frame.reads_putText (by omega)
    have hpayload : Reads Frame.bytes (Frame.putBytes e.2) e.2 := Frame.reads_putBytes (by omega)
    exact hname.bind (hpayload.andReturn fun payload => (e.1, payload))
  rw [hlen]
  exact Frame.gives_length (by omega) hcount ((Frame.reads_many hentry).andReturn Bundle.mk)

theorem reads_encode {bundle : Bundle} (h : bundle.encode.length < UInt64.size) :
    Reads read bundle.encode bundle.reread := by
  rw [read_eq_reread]
  exact (reads_written h).andReturn reread

end Bundle

namespace Filter

mutual

/-- How many levels of groups a filter takes. -/
def depth : Filter → Nat
  | .column _ => 0
  | .group _ filters _ => depthOfAll filters + 1

/-- How many levels of groups the filters of a group take. -/
def depthOfAll : List Filter → Nat
  | [] => 0
  | f :: rest => max f.depth (depthOfAll rest)

end

mutual

/-- Whether what is inside the groups of a filter has a length of 64 bits. -/
def Fits (level : Nat) : Filter → Prop
  | .column _ => True
  | .group op filters bundle =>
    (groupBody op filters.length (encodeAll level filters) bundle).length < UInt64.size ∧
      FitsAll level filters

/-- Whether what is inside the groups of filters has a length of 64 bits. -/
def FitsAll (level : Nat) : List Filter → Prop
  | [] => True
  | f :: rest => f.Fits level ∧ FitsAll level rest

end

mutual

/-- Whether a filter fits, computed. -/
def decideFits (level : Nat) : (f : Filter) → Decidable (f.Fits level)
  | .column _ => inferInstanceAs (Decidable True)
  | .group op fs bundle =>
    have := decideFitsAll level fs
    inferInstanceAs (Decidable
      ((groupBody op fs.length (encodeAll level fs) bundle).length < UInt64.size ∧
        FitsAll level fs))

/-- Whether filters fit, computed. -/
def decideFitsAll (level : Nat) : (fs : List Filter) → Decidable (FitsAll level fs)
  | [] => inferInstanceAs (Decidable True)
  | f :: rest =>
    have := decideFits level f
    have := decideFitsAll level rest
    inferInstanceAs (Decidable (f.Fits level ∧ FitsAll level rest))

end

instance (level : Nat) (f : Filter) : Decidable (f.Fits level) := decideFits level f

/-! ## Reading -/

theorem length_encodeAll (level : Nat) (fs : List Filter) :
    fs.length ≤ (encodeAll level fs).length := by
  induction fs with
  | nil => exact le_rfl
  | cons f fs ih =>
    have hfirst : 0 < (f.encode level).length := by
      cases f <;> simp [encode, Frame.putByte]
    rw [encodeAll, List.length_append, List.length_cons]
    omega

/-! ### Trees in general -/

mutual

/-- A filter as it is read back when groups may be nested so many levels deep: with comparators
built anew, without empty payloads, and with the bundles handed out. -/
def rebuild (comparators : ComparatorRegistry) : Nat → Filter → Except FilterError Filter
  | _, .column p => (p.rebuild comparators).map .column
  | 0, .group _ _ _ => .error (.malformedPayload .groupsNestedTooDeeply)
  | levels + 1, .group op filters bundle =>
    (rebuildAll comparators levels filters).map fun filters =>
      .group op (distributeAll bundle.reread filters) .empty

/-- Filters as they are read back. -/
def rebuildAll (comparators : ComparatorRegistry) : Nat → List Filter →
    Except FilterError (List Filter)
  | _, [] => .ok []
  | levels, f :: rest => do
    let first ← f.rebuild comparators levels
    let others ← rebuildAll comparators levels rest
    return first :: others

end

end Filter

namespace PredicateGroup

open CellFilter.Filter

variable {level levels : Nat} {op : Operator} {fs : List Filter} {bundle : Bundle}
  {comparators : ComparatorRegistry}

/-- Reading what is inside a group, given how its filters and its bundle are read. -/
theorem gives_contents {α : Type} {readFilter : Reader Filter} {readBundle : Reader Bundle}
    {filters : Except FilterError (List Filter)} {reread : Bundle}
    (finish : Operator → List Filter → Bundle → α)
    (hbody : (groupBody op fs.length (encodeAll level fs) bundle).length < UInt64.size)
    (hfilters : Gives (Frame.many fs.length readFilter) (encodeAll level fs) filters)
    (hbundle : Reads readBundle bundle.encode reread) :
    Gives (do
        let operator ← Operator.ofTag (← Frame.byte)
        let count ← Frame.length
        let filters ← Frame.many count readFilter
        let bundle ← readBundle
        return finish operator filters bundle)
      (groupBody op fs.length (encodeAll level fs) bundle)
      (filters.map fun fs => finish op fs reread) := by
  have hcount := length_encodeAll level fs
  simp only [groupBody, List.length_append] at hbody
  rw [groupBody, List.append_assoc, List.append_assoc]
  refine (Frame.reads_byte op.tag).bind (.given (Operator.ofTag_tag op) ?_)
  refine Frame.gives_length (by omega) (by rw [List.length_append]; omega) ?_
  exact hfilters.bind fun fs _ => hbundle.andReturn (finish op fs)

/-- Reading what is wrapped as a group, given what is done with it. -/
theorem gives_wrapped {α : Type} {body : Bytes} {next : Bytes → Reader α} {x : Except FilterError α}
    (hlen : (wrapGroup level body).length < UInt64.size) (hnext : Gives (next body) [] x) :
    Gives (do
        let contents ← Gzip.decompress (← Frame.bytes)
        next contents) (wrapGroup level body) x := by
  have hcompressed : Reads Frame.bytes (wrapGroup level body) (Gzip.compress body level) :=
    Frame.reads_putBytes hlen
  exact hcompressed.andThen (.given (Gzip.decompress_compress _ level) hnext)

/-- Reading a group, given how its filters are read. -/
theorem gives_group {filters : Except FilterError (List Filter)}
    (hbody : (groupBody op fs.length (encodeAll level fs) bundle).length < UInt64.size)
    (hlen : (wrapGroup level (groupBody op fs.length (encodeAll level fs) bundle)).length <
      UInt64.size)
    (hfilters : Gives
      (Frame.many fs.length (readFilter comparators (readWithin comparators levels)))
      (encodeAll level fs) filters) :
    Gives (readWithin comparators (levels + 1))
      (wrapGroup level (groupBody op fs.length (encodeAll level fs) bundle))
      (filters.map fun fs => .of op (distributeAll bundle.reread fs)) := by
  have hbundle : Reads Bundle.read bundle.encode bundle.reread := by
    simp only [groupBody, List.length_append] at hbody
    exact Bundle.reads_encode (by omega)
  have hinside : Gives (readBody comparators (readWithin comparators levels))
      (groupBody op fs.length (encodeAll level fs) bundle)
      (filters.map fun fs => (op, fs, bundle.reread)) :=
    gives_contents (fun op fs bundle => (op, fs, bundle)) hbody hfilters hbundle
  refine gives_wrapped hlen ?_
  rw [hinside.whole .trailingInGroup]
  cases filters <;> exact fun _ => rfl

mutual

theorem gives_filter (comparators : ComparatorRegistry) : ∀ {f : Filter} {levels : Nat},
    f.Fits level → (f.encode level).length < UInt64.size →
      Gives (readFilter comparators (readWithin comparators levels)) (f.encode level)
        (f.rebuild comparators levels)
  | .column p, levels, _, hlen => by
    rw [Filter.encode, List.length_append] at hlen
    have hread := (p.gives_encode comparators (by omega)).andReturn Filter.column
    rw [Filter.rebuild]
    exact (Frame.reads_byte columnTag).bind hread
  | .group op fs bundle, 0, _, _ => by
    rw [Filter.rebuild]
    exact (Frame.reads_byte groupTag).bind fun _ => rfl
  | .group op fs bundle, levels + 1, hfits, hlen => by
    rw [Filter.encode, List.length_append] at hlen
    have hbody := hfits.1
    have hinside : (encodeAll level fs).length < UInt64.size := by
      simp only [groupBody, List.length_append] at hbody
      omega
    have hfilters := @gives_filters comparators fs levels hfits.2 hinside
    have hgroup := (gives_group hbody (by omega) hfilters).andReturn PredicateGroup.toFilter
    rw [Filter.rebuild]
    refine (Frame.reads_byte groupTag).bind ?_
    cases hrebuilt : rebuildAll comparators levels fs <;> rw [hrebuilt] at hgroup <;> exact hgroup

theorem gives_filters (comparators : ComparatorRegistry) : ∀ {fs : List Filter} {levels : Nat},
    FitsAll level fs → (encodeAll level fs).length < UInt64.size →
      Gives (Frame.many fs.length (readFilter comparators (readWithin comparators levels)))
        (encodeAll level fs) (rebuildAll comparators levels fs)
  | [], levels, _, _ => .pure []
  | f :: fs, levels, hfits, hlen => by
    rw [encodeAll, List.length_append] at hlen
    have hfirst := @gives_filter comparators f levels hfits.1 (by omega)
    have hrest := @gives_filters comparators fs levels hfits.2 (by omega)
    exact hfirst.bind fun f _ => hrest.andReturn (f :: ·)

end

/-- **Decoding a group** that was written as it is. -/
theorem decode_frame (comparators : ComparatorRegistry) {group : PredicateGroup}
    (hfits : group.toFilter.Fits level) (hlen : (group.frame level).length < UInt64.size) :
    decode comparators (group.frame level) =
      (rebuildAll comparators maxDepth group.filters).map fun filters =>
        .of group.operator (distributeAll group.bundle.reread filters) := by
  have hinside : (encodeAll level group.filters).length < UInt64.size := by
    have hbody := hfits.1
    simp only [groupBody, List.length_append] at hbody
    omega
  have hfilters := @gives_filters level comparators group.filters maxDepth hfits.2 hinside
  exact (gives_group hfits.1 hlen hfilters).whole .trailingAfterGroup

end PredicateGroup

/-! ## Trees with nothing in their bundles -/

namespace Filter

variable {comparators : ComparatorRegistry} {levels : Nat} {P : ColumnPredicate → Prop}
  {r : ColumnPredicate → ColumnPredicate → Prop} {f g : Filter} {fs gs : List Filter}

theorem receive_empty (p : ColumnPredicate) : p.receive .empty = p := by
  have hget : (Bundle.empty.get? p.key.name).filter (fun payload => !payload.isEmpty) = none := rfl
  rw [ColumnPredicate.receive, hget, ite_self]

theorem rebuildAll_eq_mapM (fs : List Filter) :
    rebuildAll comparators levels fs = fs.mapM (rebuild comparators levels) := by
  induction fs with
  | nil => rfl
  | cons f fs ih => rw [rebuildAll, List.mapM_cons, ih]

theorem rebuildAll_eq_ok : rebuildAll comparators levels fs = .ok gs ↔
    List.Forall₂ (fun f g => f.rebuild comparators levels = .ok g) fs gs := by
  rw [rebuildAll_eq_mapM, mapM_eq_ok_iff]

/-- What is read back has the shape of what was written, each predicate being read for itself. -/
theorem alongside_of_rebuild (hbare : f.Over P) (h : f.rebuild comparators levels = .ok g) :
    Alongside (fun p q => p.rebuild comparators = .ok q) f g := by
  induction f generalizing levels g with
  | column p =>
    rw [rebuild] at h
    obtain ⟨q, hq, rfl⟩ := map_eq_ok.mp h
    exact .column hq
  | group op fs bundle ih =>
    obtain ⟨rfl, hfs⟩ := hbare
    cases levels with
    | zero => cases h
    | succ levels =>
      rw [rebuild] at h
      obtain ⟨gs, hgs, rfl⟩ := map_eq_ok.mp h
      -- an inner group has no bundle of its own to hand out
      rw [show Bundle.empty.reread = .empty from rfl, distributeAll_eq,
        mapAll_self fun p _ => receive_empty p]
      exact .group (forall₂_imp_of_mem (rebuildAll_eq_ok.mp hgs) fun f hf g _ hfg =>
        ih f hf (overAll_iff.mp hfs f hf) hfg)

theorem depthOfAll_le : depthOfAll fs ≤ levels ↔ ∀ f ∈ fs, f.depth ≤ levels := by
  induction fs with
  | nil => simp [depthOfAll]
  | cons f fs ih => rw [depthOfAll, max_le_iff, ih, List.forall_mem_cons]

theorem exists_rebuild (hdepth : f.depth ≤ levels)
    (h : ∀ p ∈ f.leaves, ∃ q, p.rebuild comparators = .ok q) :
    ∃ g, f.rebuild comparators levels = .ok g := by
  induction f generalizing levels with
  | column p =>
    obtain ⟨q, hq⟩ := h p (List.mem_singleton.mpr rfl)
    exact ⟨.column q, by rw [rebuild, hq, map_ok]⟩
  | group op fs bundle ih =>
    rw [depth] at hdepth
    obtain ⟨levels, rfl⟩ : ∃ l, levels = l + 1 := ⟨levels - 1, by omega⟩
    have heach : ∀ f ∈ fs, ∃ g, f.rebuild comparators levels = .ok g := fun f hf =>
      ih f hf (depthOfAll_le.mp (by omega) f hf) fun p hp => h p (mem_leavesAll.mpr ⟨f, hf, hp⟩)
    obtain ⟨gs, hgs⟩ := exists_forall₂ heach
    exact ⟨_, by rw [rebuild, rebuildAll_eq_ok.mpr hgs, map_ok]⟩

theorem depthOfAll_congr (h : List.Forall₂ (fun f g => g.depth = f.depth) fs gs) :
    depthOfAll gs = depthOfAll fs := by
  induction h with
  | nil => rfl
  | cons hfirst _ ih => rw [depthOfAll, depthOfAll, hfirst, ih]

theorem Alongside.depth_eq (h : Alongside r f g) : g.depth = f.depth := by
  induction f generalizing g with
  | column p =>
    cases h
    rfl
  | group op fs bundle ih =>
    cases h with
    | group hall =>
      rw [depth, depth, depthOfAll_congr (forall₂_imp_of_mem hall fun f hf g _ hfg => ih f hf hfg)]

end Filter

end CellFilter
