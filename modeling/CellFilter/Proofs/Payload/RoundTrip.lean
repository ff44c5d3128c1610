import CellFilter.Proofs.Gzip.Lossless
import CellFilter.Proofs.Payload.Reading
import CellFilter.Proofs.Schema.Isomorphism

/-!
# Payloads lead back to their schemas

What a payload holds is planted in an empty pool, and the message that it is about is found there by
its name.

* `FileDescriptor.WellNamed`: names that are found again by themselves.
* `Payload.Rebuilds`: what a payload is made of and what becomes of it.
* `Payload.decode_encode_isomorphic`: **the round trip**.
-/

namespace CellFilter

open Outcome Relation

/-! ## Names -/

/-- A package without a leading dot and messages whose own names hold no dots. -/
structure FileDescriptor.WellNamed (unit : FileDescriptor) : Prop where
  package : ∀ rest, unit.package.toList ≠ '.' :: rest
  messages : ∀ d ∈ Declaration.messages (Declaration.ofFile unit), '.' ∉ d.2.2.name.toList

theorem qualify_no_leading_dot {scope name : String} (hs : ∀ rest, scope.toList ≠ '.' :: rest)
    (hn : '.' ∉ name.toList) : ∀ rest, (qualify scope name).toList ≠ '.' :: rest := by
  intro rest h
  unfold qualify at h
  split_ifs at h with hempty
  · exact hn (h ▸ List.mem_cons_self)
  · cases hc : scope.toList with
    | nil => exact hempty (by simpa using hc)
    | cons c chars =>
      rw [String.toList_append, String.toList_append, hc] at h
      exact hs chars (by rw [hc, (List.cons.inj h).1])

namespace Declaration

mutual

theorem no_leading_dot_of_ofMessage {scope : String} {path : List Nat} :
    ∀ {m : MessageDescriptor}, (∀ rest, scope.toList ≠ '.' :: rest) →
      (∀ d ∈ messages (ofMessage scope path m), '.' ∉ d.2.2.name.toList) →
        ∀ d ∈ messages (ofMessage scope path m), ∀ rest, d.1.toList ≠ '.' :: rest
  | ⟨name?, fields, nested, enums, carried⟩, hs, hn, d, hd => by
    rw [ofMessage, messages_message, messages_append, messages_ofEnums, List.append_nil] at hn hd
    have hself := qualify_no_leading_dot hs (hn _ List.mem_cons_self)
    rcases List.mem_cons.mp hd with rfl | hd
    · exact hself
    · exact no_leading_dot_of_ofMessages hself
        (fun d hd => hn d (List.mem_cons_of_mem _ hd)) d hd

theorem no_leading_dot_of_ofMessages {scope : String} {path : List Nat} :
    ∀ {ms : List MessageDescriptor} {start : Nat}, (∀ rest, scope.toList ≠ '.' :: rest) →
      (∀ d ∈ messages (ofMessages scope path start ms), '.' ∉ d.2.2.name.toList) →
        ∀ d ∈ messages (ofMessages scope path start ms), ∀ rest, d.1.toList ≠ '.' :: rest
  | [], _, _, _, d, hd => by simp [ofMessages] at hd
  | m :: ms, start, hs, hn, d, hd => by
    rw [ofMessages, messages_append] at hn hd
    rcases List.mem_append.mp hd with hd | hd
    · exact no_leading_dot_of_ofMessage hs (fun d hd => hn d (List.mem_append_left _ hd)) d hd
    · exact no_leading_dot_of_ofMessages hs (fun d hd => hn d (List.mem_append_right _ hd)) d hd

end

end Declaration

theorem FileDescriptor.WellNamed.no_leading_dot {unit : FileDescriptor} (h : unit.WellNamed) :
    ∀ d ∈ Declaration.messages (Declaration.ofFile unit), ∀ rest, d.1.toList ≠ '.' :: rest := by
  have hn := h.messages
  rw [Declaration.ofFile, Declaration.messages_append, Declaration.messages_ofEnums,
    List.append_nil] at hn ⊢
  exact Declaration.no_leading_dot_of_ofMessages h.package hn

namespace Schema

open SchemaPool

variable {s t : Schema}

theorem trimName_eq {name : String} (h : ∀ rest, name.toList ≠ '.' :: rest) :
    trimName name = name := by
  cases hc : name.toList with
  | nil => rw [trimName, hc, List.dropWhile_nil, ← hc, String.ofList_toList]
  | cons c chars =>
    have hdot : c ≠ '.' := fun hd => h chars (by rw [hc, hd])
    rw [trimName, hc, List.dropWhile_cons, if_neg (by simpa using hdot), ← hc,
      String.ofList_toList]

/-- A message that a unit of a pool declares is found in the pool by its name. -/
theorem ofPool?_of_declared {Q : SchemaPool} (hQ : Q.Built) {unit : FileDescriptor}
    {name : String} {path : List Nat} {d : MessageDescriptor} (hu : unit ∈ Q.files)
    (hd : .message name path d ∈ Declaration.ofFile unit) (hn : ∀ rest, name.toList ≠ '.' :: rest) :
    ∃ t, ofPool? Q name = some t ∧ t.pool = Q ∧ t.fullName = name := by
  obtain ⟨i, hi⟩ := scopeOf_message hQ.clear hu hd
  rw [← hQ.type?_eq] at hi
  obtain ⟨t, ht, hpool, hname⟩ := hQ.ofIndex?_of_type? hi
  refine ⟨t, ?_, hpool, hname⟩
  rw [ofPool?, trimName_eq hn, hi]
  exact ht

/-! ## Standalone units -/

theorem ofFile_standalone (s : Schema) :
    Declaration.ofFile s.standalone = [.message s.liftedName [0] s.declaration.alone] := by
  rfl

/-- In a pool of a standalone unit alone there is only the message of that unit. -/
theorem standalone_of_files (ht : t.pool.Built) (hfiles : ∀ u ∈ t.pool.files, u = s.standalone) :
    t.file = s.standalone ∧ t.declaration = s.declaration.alone := by
  obtain ⟨hplace, hmem, -⟩ := exists_declared ht
  have hfile := hfiles t.file (List.mem_of_getElem? hplace)
  refine ⟨hfile, ?_⟩
  rw [hfile, ofFile_standalone] at hmem
  exact congrArg (fun d => d.2.2) (List.mem_singleton.mp hmem)

/-- The standalone unit of a message that refers to no other type can be added to an empty pool. -/
theorem addFile_standalone (hs : s.pool.Built) (hself : s.isSelfContained = true) :
    ∃ Q, SchemaPool.empty.addFile s.standalone = .ok Q ∧ Q.Built ∧ Q.files = [s.standalone] := by
  obtain ⟨-, -, hfields⟩ := exists_declared hs
  have hempty : SchemaPool.empty.Built := SchemaPool.Reachable.empty.built
  have hclear : Clear [s.standalone] := by simp [Clear, Declaration.ofFiles, ofFile_standalone]
  have hfresh : SchemaPool.empty.Fresh (Declaration.ofFile s.standalone) := by
    rw [ofFile_standalone]
    exact ⟨List.nodup_singleton _, fun _ _ => rfl⟩
  obtain ⟨Q, hadd, hfiles⟩ := hempty.exists_addFile
    (show SchemaPool.empty.containsFile s.standalone.name = false from rfl)
    (fun d hd => absurd hd List.not_mem_nil) hfresh (by
      intro d hd
      rw [ofFile_standalone] at hd
      obtain rfl := List.mem_singleton.mp hd
      refine exists_mapM_eq_ok fun field hfield => ?_
      obtain ⟨f, -, hf⟩ := forall₂_left_mem (mapM_eq_ok_iff.mp hfields) field hfield
      obtain ⟨g, hg, -⟩ := resolveField_transfer (hs.clear_take _) hclear
        (fun hplain => absurd hplain (plain?_ne_none hs hself hfield)) hf
      exact ⟨g, hg⟩)
  exact ⟨Q, hadd, hempty.add hadd, hfiles⟩

/-! ## The round trip -/

/-- The units that the payload of a schema holds. -/
def Ships (s : Schema) (unit : FileDescriptor) : Prop :=
  if s.isSelfContained then unit = s.standalone else ReflTransGen s.pool.Imports s.file unit

/-- The name under which a schema travels. -/
def shippedName (s : Schema) : String := if s.isSelfContained then s.liftedName else s.fullName

end Schema

namespace Payload

open Schema SchemaPool

variable {s : Schema}

/-- What the payload of a schema is made of. -/
structure Rebuilds (s : Schema) (tree : UnitTree) (t : Schema) : Prop where
  built : t.pool.Built
  body : Payload.body s = .ok (frame s.shippedName tree)
  plant : tree.plant .empty = .ok t.pool
  target : Schema.ofPool? t.pool s.shippedName = some t
  units : ∀ u ∈ tree.units, s.Ships u
  isomorphic : s.Isomorphic t
  name : t.fullName = s.shippedName
  files : ∀ u, u ∈ t.pool.files ↔ s.Ships u
  once : (t.pool.files.map FileDescriptor.name).Nodup

theorem rebuilds_standalone (hs : s.pool.Built) (hnames : s.file.WellNamed)
    (hself : s.isSelfContained = true) : ∃ t, Rebuilds s (.declared s.standalone []) t := by
  obtain ⟨Q, hadd, hQ, hfiles⟩ := addFile_standalone hs hself
  have hunit : s.standalone ∈ Q.files := by rw [hfiles]; exact List.mem_singleton_self _
  have hdecl := ofFile_standalone s
  obtain ⟨-, hmem, -⟩ := exists_declared hs
  have hname : ∀ rest, s.liftedName.toList ≠ '.' :: rest :=
    qualify_no_leading_dot hnames.package
      (hnames.messages (s.fullName, s.type.path, s.declaration) hmem)
  obtain ⟨t, ht, rfl, htname⟩ := ofPool?_of_declared hQ hunit
    (by rw [hdecl]; exact List.mem_singleton_self _) hname
  obtain ⟨-, halone⟩ := standalone_of_files hQ fun u hu => by
    rwa [hfiles, List.mem_singleton] at hu
  have hships : ∀ u, s.Ships u ↔ u = s.standalone := by simp [Ships, hself]
  have hshipped : s.shippedName = s.liftedName := if_pos hself
  refine ⟨t, hQ, ?_, ?_, ?_, ?_, ?_, ?_, ?_, ?_⟩
  · rw [body, if_pos hself, hshipped]
    rfl
  · exact hadd
  · rw [hshipped, ht]
  · intro u hu
    exact (hships u).mpr (by simpa [UnitTree.units, UnitTree.unitsOfAll] using hu)
  · exact isomorphic_of_selfContained hs hQ hself (by rw [halone]; rfl)
  · rw [hshipped, htname]
  · intro u
    rw [hfiles, hships, List.mem_singleton]
  · exact hQ.unitNames

theorem rebuilds_closure (hs : s.pool.Built) (hnames : s.file.WellNamed)
    (hq : ∀ u, ReflTransGen s.pool.Imports s.file u → s.pool.Qualified u)
    (hself : s.isSelfContained = false) :
    ∃ tree t, UnitTree.ofUnit s.pool s.file = .ok tree ∧ Rebuilds s tree t := by
  obtain ⟨hfile, hmem, -⟩ := exists_declared hs
  obtain ⟨tree, Q, htree, hplant, hwithin, hfiles, hunits⟩ :=
    UnitTree.ofUnit_plants hs (List.mem_of_getElem? hfile) hq
  have hname := hnames.no_leading_dot _ hmem
  obtain ⟨t, ht, rfl, htname⟩ := ofPool?_of_declared hwithin.built ((hfiles s.file).mpr .refl)
    (Declaration.mem_ofFile_of_message hmem) hname
  have hships : ∀ u, s.Ships u ↔ ReflTransGen s.pool.Imports s.file u := by simp [Ships, hself]
  have hshipped : s.shippedName = s.fullName := if_neg (by simp [hself])
  refine ⟨tree, t, htree, hwithin.built, ?_, hplant, ?_, ?_, ?_, ?_, ?_, ?_⟩
  · rw [body, if_neg (by simp [hself]), htree, ok_bind, hshipped]
    rfl
  · rw [hshipped, ht]
  · exact fun u hu => (hships u).mpr (hunits u hu)
  · exact isomorphic_of_within hs hwithin (fun u hu => hq u ((hfiles u).mp hu)) htname.symm
  · rw [hshipped, htname]
  · intro u
    rw [hfiles, hships]
  · exact hwithin.built.unitNames

/-- A schema whose units are not nested too deeply has a payload that decodes. -/
theorem exists_payload (level : Nat) (hs : s.pool.Built) (hnames : s.file.WellNamed)
    (hq : ∀ u, ReflTransGen s.pool.Imports s.file u → s.pool.Qualified u)
    (hship : ∀ u, s.Ships u → u.Shippable)
    (hdepth : ∀ tree, UnitTree.ofUnit s.pool s.file = .ok tree → tree.nesting ≤ maxDepth)
    (hlen : ∀ bytes, body s = .ok bytes → bytes.length < UInt64.size) :
    ∃ payload tree t, encode level s = .ok payload ∧ decode payload = .ok t ∧
      Rebuilds s tree t := by
  obtain ⟨tree, t, h, hnest⟩ : ∃ tree t, Rebuilds s tree t ∧ tree.nesting ≤ maxDepth := by
    cases hself : s.isSelfContained with
    | true =>
      obtain ⟨t, h⟩ := rebuilds_standalone hs hnames hself
      exact ⟨_, t, h, Nat.zero_le _⟩
    | false =>
      obtain ⟨tree, t, htree, h⟩ := rebuilds_closure hs hnames hq hself
      exact ⟨tree, t, h, hdepth tree htree⟩
  refine ⟨_, tree, t, by rw [encode, h.body]; rfl, ?_, h⟩
  rw [decode, Gzip.decompress_compress, ok_bind]
  exact schemaOfBody_frame hnest (hlen _ h.body) (fun u hu => hship u (h.units u hu)) h.plant h.target

/-- **The round trip.**  The payload of a schema decodes to a schema that says the same, in a pool of
just the units that were shipped. -/
theorem decode_encode_isomorphic (level : Nat) (hs : s.pool.Reachable) (hnames : s.file.WellNamed)
    (hq : ∀ u, ReflTransGen s.pool.Imports s.file u → s.pool.Qualified u)
    (hship : ∀ u, s.Ships u → u.Shippable)
    (hdepth : ∀ tree, UnitTree.ofUnit s.pool s.file = .ok tree → tree.nesting ≤ maxDepth)
    (hlen : ∀ bytes, body s = .ok bytes → bytes.length < UInt64.size) :
    ∃ payload t, encode level s = .ok payload ∧ decode payload = .ok t ∧ s.Isomorphic t ∧
      t.fullName = s.shippedName ∧ (∀ u, u ∈ t.pool.files ↔ s.Ships u) ∧
      (t.pool.files.map FileDescriptor.name).Nodup := by
  obtain ⟨payload, tree, t, hencode, hdecode, h⟩ :=
    exists_payload level hs.built hnames hq hship hdepth hlen
  exact ⟨payload, t, hencode, hdecode, h.isomorphic, h.name, h.files, h.once⟩

/-! ### A message of a type that another unit declares -/

theorem topUnit_reaches {u : FileDescriptor}
    (hr : ReflTransGen (topPool ["base.proto"]).Imports (topUnit ["base.proto"]) u) :
    u = topUnit ["base.proto"] ∨ u = baseUnit := by
  have hmem := Imports.mem_of_reaches hr (List.mem_cons_of_mem _ List.mem_cons_self)
  simpa [topPool, or_comm] using hmem

theorem topUnit_wellNamed : (topUnit ["base.proto"]).WellNamed := by
  refine ⟨fun rest h => ?_, ?_⟩
  · have hpackage : (topUnit ["base.proto"]).package.toList = ['d', 'e', 'm', 'o'] := by rfl
    rw [hpackage] at h
    cases h
  · intro d hd
    obtain rfl := List.mem_singleton.mp hd
    have hname : ['T', 'o', 'p'] = "Top".toList := by rfl
    show '.' ∉ "Top".toList
    rw [← hname]
    decide

theorem topPool_qualified {u : FileDescriptor}
    (hr : ReflTransGen (topPool ["base.proto"]).Imports (topUnit ["base.proto"]) u) :
    (topPool ["base.proto"]).Qualified u := by
  intro d hd field hfield _
  rcases topUnit_reaches hr with rfl | rfl
  · obtain rfl := List.mem_singleton.mp hd
    obtain rfl := List.mem_singleton.mp hfield
    refine ⟨"demo.Base", baseUnit, by decide, .single ⟨?_, ?_, ?_⟩, ?_⟩
    · exact List.mem_cons_of_mem _ List.mem_cons_self
    · exact List.mem_cons_self
    · exact List.mem_cons_self
    · exact List.mem_cons_self
  · obtain rfl := List.mem_singleton.mp hd
    cases hfield

theorem topSchema_shippable {u : FileDescriptor} (hu : (topSchema ["base.proto"]).Ships u) :
    u.Shippable := by
  rcases topUnit_reaches hu with rfl | rfl
  · exact ⟨by decide, by with_unfolding_all rfl⟩
  · exact ⟨by decide, by with_unfolding_all rfl⟩

/-- The tree of both units. -/
def topTree : UnitTree := .declared (topUnit ["base.proto"]) [.declared baseUnit []]

theorem body_topSchema : body (topSchema ["base.proto"]) = .ok (frame "demo.Top" topTree) := by
  decide +kernel

theorem length_body_topSchema {bytes : Bytes} (h : body (topSchema ["base.proto"]) = .ok bytes) :
    bytes.length < UInt64.size := by
  obtain rfl := Except.ok.inj (body_topSchema.symm.trans h)
  decide +kernel

theorem decode_encode_topSchema : ∃ payload t, encode 6 (topSchema ["base.proto"]) = .ok payload ∧
    decode payload = .ok t ∧ (topSchema ["base.proto"]).Isomorphic t ∧ t.fullName = "demo.Top" := by
  have htree : UnitTree.ofUnit (topPool ["base.proto"]) (topUnit ["base.proto"]) = .ok topTree := by
    with_unfolding_all rfl
  obtain ⟨payload, t, hencode, hdecode, hiso, hname, -, -⟩ :=
    decode_encode_isomorphic (s := topSchema ["base.proto"]) 6 topPool_reachable topUnit_wellNamed
      (fun _ => topPool_qualified) (fun _ => topSchema_shippable) (by
        intro tree htree'
        obtain rfl := Except.ok.inj (htree.symm.trans htree')
        decide) (fun _ => length_body_topSchema)
  exact ⟨payload, t, hencode, hdecode, hiso, hname⟩

end Payload

end CellFilter
