import CellFilter.Proofs.Cache.Run
import CellFilter.Proofs.Gzip.Lossless
import CellFilter.Proofs.Schema.Resolution

/-!
# A cache over time

A cache answers as if it decoded a payload whenever it is asked.  What it hands out under a key was
decoded from a payload that was given under that key since the cache was cleared, and as long as
keys name their payloads, it is what any of the payloads of the key decodes to.

* `SchemaCache.Resolved`: all that asking for a schema can come to.
* `SchemaCache.after`: the cache that a history of calls leaves.
* `get?_after`: the handles in a cache, told from its history.
* `Ledger`: every handle was made once, under one key, from a payload given under that key.
* `history_transparent`: **a cache makes no difference**, but for the handles that are shared.
-/

namespace CellFilter

open Outcome WithCache

/-- A call to a cache. -/
inductive CacheCall where
  | resolve (key : SchemaKey) (payload? : Option Bytes)
  | get (key : SchemaKey)
  | clear

/-- Every payload in a history was given under its own hash, and no two payloads have the same. -/
structure CacheCall.Named (calls : List CacheCall) : Prop where
  hash : ∀ key payload, .resolve key (some payload) ∈ calls → payload ≠ [] →
    key.hash = .of payload
  apart : ∀ key key' payload payload', .resolve key (some payload) ∈ calls →
    .resolve key' (some payload') ∈ calls → payload ≠ [] → payload' ≠ [] →
      ContentHash.of payload = ContentHash.of payload' → payload = payload'

namespace SchemaCache

variable {cache : SchemaCache} {key : SchemaKey} {payload? : Option Bytes} {handle : SchemaHandle}
  {calls earlier later : List CacheCall} {call : CacheCall}

/-! ## What a call can do -/

/-- All that asking for a schema can come to: the answer, and the cache that is left. -/
inductive Resolved (cache : SchemaCache) (key : SchemaKey) (payload? : Option Bytes) :
    Except FilterError SchemaHandle × SchemaCache → Prop
  | hit {handle : SchemaHandle} : cache.get? key = some handle →
      Resolved cache key payload? (.ok handle, cache)
  | made {payload : Bytes} {schema : Schema} : cache.get? key = none → payload? = some payload →
      payload ≠ [] → Payload.decode payload = .ok schema →
      Resolved cache key payload? (.ok ⟨cache.decoded, schema⟩, cache.insert key schema)
  | undecodable {payload : Bytes} {e : FilterError} : cache.get? key = none →
      payload? = some payload → payload ≠ [] → Payload.decode payload = .error e →
      Resolved cache key payload? (.error e, cache)
  | missing : cache.get? key = none → (∀ payload, payload? = some payload → payload = []) →
      Resolved cache key payload? (.error (.missingPayload key.name), cache)

theorem resolved (cache : SchemaCache) (key : SchemaKey) (payload? : Option Bytes) :
    Resolved cache key payload? (runOn (resolve key payload?) cache) := by
  cases hget : cache.get? key with
  | some handle =>
    rw [resolve_of_hit hget]
    exact .hit hget
  | none =>
    by_cases hpayload : ∃ payload, payload? = some payload ∧ payload ≠ []
    · obtain ⟨payload, rfl, hne⟩ := hpayload
      have hsome : payload.isEmpty = false := by simpa using hne
      cases hdecode : Payload.decode payload with
      | ok schema =>
        rw [resolve_of_miss hget hsome hdecode]
        exact .made hget rfl hne hdecode
      | error e =>
        rw [resolve_of_undecodable hget hsome hdecode]
        exact .undecodable hget rfl hne hdecode
    · have hempty : ∀ payload, payload? = some payload → payload = [] := fun payload hp =>
        by_contra fun hne => hpayload ⟨payload, hp, hne⟩
      have hfilter : (payload?.filter fun p => !p.isEmpty) = none := by
        simpa [Option.filter_eq_none_iff] using hempty
      rw [resolve_of_missing hget hfilter]
      exact .missing hget hempty

/-- The cache that a call leaves. -/
def perform (cache : SchemaCache) : CacheCall → SchemaCache
  | .resolve key payload? => (runOn (resolve key payload?) cache).2
  | .get _ => cache
  | .clear => cache.clear

/-- The handle that a call hands out, with the key that it was asked for. -/
def served? (cache : SchemaCache) : CacheCall → Option (SchemaKey × SchemaHandle)
  | .resolve key payload? => (runOn (resolve key payload?) cache).1.toOption.map (key, ·)
  | .get key => (cache.get? key).map (key, ·)
  | .clear => none

/-- The cache that calls leave, from the first to the last. -/
def after (calls : List CacheCall) : SchemaCache := calls.foldl perform empty

theorem after_append (earlier later : List CacheCall) :
    after (earlier ++ later) = later.foldl perform (after earlier) := List.foldl_append

theorem after_concat (calls : List CacheCall) (call : CacheCall) :
    after (calls ++ [call]) = (after calls).perform call := after_append calls [call]

/-! ## Handles and the calls they come from -/

/-- The handle that a call for a schema answers with is in the cache afterwards. -/
theorem get?_of_resolve (h : (runOn (resolve key payload?) cache).1 = .ok handle) :
    (cache.perform (.resolve key payload?)).get? key = some handle := by
  rw [perform]
  have hresolved := resolved cache key payload?
  generalize runOn (resolve key payload?) cache = result at h hresolved ⊢
  cases hresolved with
  | hit hget =>
    cases h
    exact hget
  | made =>
    cases h
    rw [get?_insert, if_pos rfl]
  | undecodable | missing => cases h

/-- A handle stays until the cache is cleared. -/
theorem get?_perform (hget : cache.get? key = some handle) (hcall : call ≠ .clear) :
    (cache.perform call).get? key = some handle := by
  cases call with
  | get _ => exact hget
  | clear => exact absurd rfl hcall
  | resolve other payload? =>
    rw [perform]
    have hresolved := resolved cache other payload?
    generalize runOn (resolve other payload?) cache = result at hresolved ⊢
    cases hresolved with
    | made hnone =>
      have hne : key ≠ other := by
        rintro rfl
        rw [hget] at hnone
        cases hnone
      rw [get?_insert, if_neg hne, hget]
    | hit | undecodable | missing => exact hget

theorem get?_foldl (hget : cache.get? key = some handle) (hlater : CacheCall.clear ∉ later) :
    (later.foldl perform cache).get? key = some handle := by
  induction later generalizing cache with
  | nil => exact hget
  | cons call rest ih =>
    have hcall : call ≠ .clear := Ne.symm (List.ne_of_not_mem_cons hlater)
    exact ih (get?_perform hget hcall) (List.not_mem_of_not_mem_cons hlater)

/-- A handle that is in the cache was there before, or the call has just answered with it. -/
theorem get?_of_perform (h : (cache.perform call).get? key = some handle) : call ≠ .clear ∧
    (cache.get? key = some handle ∨ ∃ payload?, call = .resolve key payload? ∧
      (runOn (resolve key payload?) cache).1 = .ok handle) := by
  cases call with
  | clear => cases h
  | get _ => exact ⟨by simp, Or.inl h⟩
  | resolve other payload? =>
    refine ⟨by simp, ?_⟩
    rw [perform] at h
    have hresolved := resolved cache other payload?
    cases hrun : runOn (resolve other payload?) cache with
    | mk outcome left =>
      rw [hrun] at h hresolved
      cases hresolved with
      | hit | undecodable | missing => exact Or.inl h
      | made hnone =>
        rw [get?_insert] at h
        split_ifs at h with hkey
        · subst hkey
          exact Or.inr ⟨payload?, rfl, by rw [hrun]; exact congrArg Except.ok (Option.some.inj h)⟩
        · exact Or.inl h

/-- **What is in a cache** under a key: the handle that some call has answered with, the cache not
having been cleared since. -/
theorem get?_after : (after calls).get? key = some handle ↔ ∃ earlier payload? later,
    calls = earlier ++ .resolve key payload? :: later ∧ CacheCall.clear ∉ later ∧
      (runOn (resolve key payload?) (after earlier)).1 = .ok handle := by
  constructor
  · induction calls using List.reverseRecOn with
    | nil => exact fun h => by cases h
    | append_singleton calls call ih =>
      intro h
      rw [after_concat] at h
      obtain ⟨hcall, hget | ⟨payload?, rfl, hrun⟩⟩ := get?_of_perform h
      · obtain ⟨earlier, payload?, later, rfl, hlater, hrun⟩ := ih hget
        refine ⟨earlier, payload?, later ++ [call], by simp, ?_, hrun⟩
        simpa [hlater] using Ne.symm hcall
      · exact ⟨calls, payload?, [], rfl, List.not_mem_nil, hrun⟩
  · rintro ⟨earlier, payload?, later, rfl, hlater, hrun⟩
    rw [after_append, List.foldl_cons]
    exact get?_foldl (get?_of_resolve hrun) hlater

/-! ## A ledger of handles -/

/-- The key was given a payload in the history that decodes to the schema. -/
def Sourced (calls : List CacheCall) (key : SchemaKey) (schema : Schema) : Prop :=
  ∃ payload ≠ [], .resolve key (some payload) ∈ calls ∧ Payload.decode payload = .ok schema

theorem Sourced.mono {more : List CacheCall} {schema : Schema} (h : Sourced calls key schema)
    (hmore : calls ⊆ more) : Sourced more key schema := by
  obtain ⟨payload, hne, hmem, hdecode⟩ := h
  exact ⟨payload, hne, hmore hmem, hdecode⟩

/-- The handles that were made in a history, in the order of their numbers, with their keys. -/
structure Ledger (calls : List CacheCall) (made : List (SchemaKey × SchemaHandle)) : Prop where
  length : made.length = (after calls).decoded
  sourced : ∀ entry ∈ made, Sourced calls entry.1 entry.2.schema
  kept : ∀ key handle, (after calls).get? key = some handle →
    made[handle.number]? = some (key, handle)
  served : ∀ earlier call key handle, earlier ++ [call] <+: calls →
    (after earlier).served? call = some (key, handle) → made[handle.number]? = some (key, handle)

namespace Ledger

variable {made more : List (SchemaKey × SchemaHandle)}

/-- A call adds handles to a ledger: with what is in the cache, all that was handed out is in it. -/
theorem extend (h : Ledger calls made)
    (hlength : (made ++ more).length = ((after calls).perform call).decoded)
    (hsourced : ∀ entry ∈ more, Sourced (calls ++ [call]) entry.1 entry.2.schema)
    (hkept : ∀ key handle, ((after calls).perform call).get? key = some handle →
      (made ++ more)[handle.number]? = some (key, handle))
    (hserved : ∀ key handle, (after calls).served? call = some (key, handle) →
      (made ++ more)[handle.number]? = some (key, handle)) :
    Ledger (calls ++ [call]) (made ++ more) := by
  rw [← after_concat] at hlength hkept
  refine ⟨hlength, fun entry hentry => ?_, hkept, fun earlier last key handle hinitial hlast => ?_⟩
  · rcases List.mem_append.mp hentry with hold | hnew
    · exact (h.sourced entry hold).mono (List.subset_append_left calls [call])
    · exact hsourced entry hnew
  · rcases List.prefix_concat_iff.mp hinitial with heq | hbefore
    · obtain ⟨rfl, rfl⟩ := List.append_inj' heq rfl |>.imp id List.singleton_inj.mp
      exact hserved key handle hlast
    · have hold := h.served earlier last key handle hbefore hlast
      rw [List.getElem?_append_left (List.getElem?_eq_some_iff.mp hold).1, hold]

/-- A call that makes no handle hands out one that is in the cache. -/
theorem same (h : Ledger calls made)
    (hdecoded : ((after calls).perform call).decoded = (after calls).decoded)
    (hkept : ∀ key handle, ((after calls).perform call).get? key = some handle →
      (after calls).get? key = some handle)
    (hserved : ∀ key handle, (after calls).served? call = some (key, handle) →
      (after calls).get? key = some handle) : Ledger (calls ++ [call]) made := by
  have hextended : Ledger (calls ++ [call]) (made ++ []) := by
    refine h.extend ?_ (fun _ hnil => absurd hnil List.not_mem_nil) ?_ ?_
    · rw [List.append_nil, h.length, hdecoded]
    · intro key handle hget
      rw [List.append_nil]
      exact h.kept key handle (hkept key handle hget)
    · intro key handle hget
      rw [List.append_nil]
      exact h.kept key handle (hserved key handle hget)
  rwa [List.append_nil] at hextended

/-- A payload that is decoded adds a handle with the next number. -/
theorem decoded {payload : Bytes} {schema : Schema} (h : Ledger calls made)
    (hrun : runOn (resolve key (some payload)) (after calls) =
      (.ok ⟨(after calls).decoded, schema⟩, (after calls).insert key schema))
    (hne : payload ≠ []) (hdecode : Payload.decode payload = .ok schema) :
    Ledger (calls ++ [.resolve key (some payload)])
      (made ++ [(key, ⟨(after calls).decoded, schema⟩)]) := by
  refine h.extend ?_ ?_ ?_ ?_
  · rw [perform, hrun, List.length_append, h.length]
    rfl
  · intro entry hentry
    rw [List.mem_singleton.mp hentry]
    exact ⟨payload, hne, by simp, hdecode⟩
  · intro other handle hget
    rw [perform, hrun, get?_insert] at hget
    split_ifs at hget with hother
    · cases hget
      rw [hother, ← h.length, List.getElem?_concat_length]
    · have hold := h.kept other handle hget
      rw [List.getElem?_append_left (List.getElem?_eq_some_iff.mp hold).1, hold]
  · intro other handle hserved
    rw [served?, hrun] at hserved
    cases hserved
    rw [← h.length, List.getElem?_concat_length]

/-- A call makes at most one handle. -/
theorem step (h : Ledger calls made) (call : CacheCall) :
    ∃ more, Ledger (calls ++ [call]) (made ++ more) := by
  have hsame : Ledger (calls ++ [call]) made → ∃ more, Ledger (calls ++ [call]) (made ++ more) :=
    fun hledger => ⟨[], by rwa [List.append_nil]⟩
  cases call with
  | clear => exact hsame (h.same rfl (fun _ _ hget => by cases hget) fun _ _ hget => by cases hget)
  | get key =>
    refine hsame (h.same rfl (fun _ _ hget => hget) fun other handle hserved => ?_)
    obtain ⟨found, hfound, heq⟩ := Option.map_eq_some_iff.mp hserved
    cases heq
    exact hfound
  | resolve key payload? =>
    have hresolved := resolved (after calls) key payload?
    cases hrun : runOn (resolve key payload?) (after calls) with
    | mk outcome left =>
      have hleft : (after calls).perform (.resolve key payload?) = left := by rw [perform, hrun]
      rw [hrun] at hresolved
      cases hresolved with
      | @made payload schema hnone hpayload hne hdecode =>
        subst hpayload
        exact ⟨_, h.decoded hrun hne hdecode⟩
      | hit hget =>
        refine hsame (h.same (by rw [hleft]) (fun _ _ => by rw [hleft]; exact id) ?_)
        intro other handle hserved
        rw [served?, hrun] at hserved
        cases hserved
        exact hget
      | undecodable | missing =>
        refine hsame (h.same (by rw [hleft]) (fun _ _ => by rw [hleft]; exact id) ?_)
        intro other handle hserved
        rw [served?, hrun] at hserved
        cases hserved

end Ledger

theorem exists_ledger (calls : List CacheCall) : ∃ made, Ledger calls made := by
  induction calls using List.reverseRecOn with
  | nil =>
    refine ⟨[], ⟨rfl, fun _ h => absurd h List.not_mem_nil, fun _ _ h => ?_, ?_⟩⟩
    · cases h
    · intro earlier call _ _ hinitial
      simp at hinitial
  | append_singleton calls call ih =>
    obtain ⟨made, h⟩ := ih
    obtain ⟨more, h⟩ := h.step call
    exact ⟨made ++ more, h⟩

/-- What a call makes of a payload that is all that the history has under its key. -/
theorem resolve_of_sourced {payload : Bytes} (hne : payload ≠ [])
    (hsourced : ∀ handle, cache.get? key = some handle →
      Payload.decode payload = .ok handle.schema) :
    (runOn (resolve key (some payload)) cache).1.map SchemaHandle.schema =
      Payload.decode payload := by
  have hresolved := resolved cache key (some payload)
  generalize runOn (resolve key (some payload)) cache = result at hresolved ⊢
  cases hresolved with
  | hit hget => exact (hsourced _ hget).symm
  | made _ hpayload _ hdecode =>
    cases hpayload
    exact hdecode.symm
  | undecodable _ hpayload _ hdecode =>
    cases hpayload
    exact hdecode.symm
  | missing _ hempty => exact absurd (hempty payload rfl) hne

/-- A call that fails finds nothing under the key and leaves the cache as it was. -/
theorem resolve_of_error {e : FilterError}
    (h : (runOn (resolve key payload?) cache).1 = .error e) :
    cache.get? key = none ∧ (runOn (resolve key payload?) cache).2 = cache := by
  have hresolved := resolved cache key payload?
  generalize runOn (resolve key payload?) cache = result at h hresolved ⊢
  cases hresolved with
  | hit | made => cases h
  | undecodable hnone | missing hnone => exact ⟨hnone, rfl⟩

/-- Where payloads are named by their hashes, a call comes to what its payload decodes to. -/
theorem resolve_of_named {payload : Bytes} (hnamed : CacheCall.Named calls) (hne : payload ≠ [])
    (hinitial : earlier ++ [.resolve key (some payload)] <+: calls) :
    (runOn (resolve key (some payload)) (after earlier)).1.map SchemaHandle.schema =
      Payload.decode payload := by
  refine resolve_of_sourced hne fun handle hget => ?_
  obtain ⟨made, hledger⟩ := exists_ledger earlier
  obtain ⟨other, hother, hmem, hdecode⟩ :=
    hledger.sourced _ (List.mem_of_getElem? (hledger.kept key handle hget))
  have hearlier : earlier ⊆ calls := fun c hc => hinitial.subset (List.mem_append_left _ hc)
  have hpayload : CacheCall.resolve key (some payload) ∈ calls := hinitial.subset (by simp)
  have hhash : ContentHash.of other = ContentHash.of payload := by
    rw [← hnamed.hash key other (hearlier hmem) hother, hnamed.hash key payload hpayload hne]
  rw [← hnamed.apart key key other payload (hearlier hmem) hpayload hother hne hhash]
  exact hdecode

/-- **A cache makes no difference.**  For every history of calls:
a key has the handle that a call for it has answered with since the cache was cleared, and then
every call for it answers with that handle, whatever payload comes with it;
a call that fails changes nothing, so that the next payload under the key is decoded;
a handle has one key, and its schema was decoded from a payload given under that key;
and if payloads were given under their own hashes, which no two of them share, every call with a
payload comes to what its payload decodes to. -/
theorem history_transparent (calls : List CacheCall) :
    (∀ key handle, (after calls).get? key = some handle ↔ ∃ earlier payload? later,
      calls = earlier ++ .resolve key payload? :: later ∧ CacheCall.clear ∉ later ∧
        (runOn (resolve key payload?) (after earlier)).1 = .ok handle) ∧
    (∀ key handle, (after calls).get? key = some handle → ∀ payload?,
      runOn (resolve key payload?) (after calls) = (.ok handle, after calls)) ∧
    (∀ key payload? e, (runOn (resolve key payload?) (after calls)).1 = .error e →
      after (calls ++ [.resolve key payload?]) = after calls ∧ ∀ payload ≠ [],
        (runOn (resolve key (some payload)) (after calls)).1.map SchemaHandle.schema =
          Payload.decode payload) ∧
    (∃ made : List (SchemaKey × SchemaHandle), ∀ earlier call key handle,
      earlier ++ [call] <+: calls → (after earlier).served? call = some (key, handle) →
        made[handle.number]? = some (key, handle) ∧ Sourced calls key handle.schema) ∧
    (CacheCall.Named calls → ∀ earlier key payload, payload ≠ [] →
      earlier ++ [.resolve key (some payload)] <+: calls →
        (runOn (resolve key (some payload)) (after earlier)).1.map SchemaHandle.schema =
          Payload.decode payload) := by
  refine ⟨fun _ _ => get?_after, fun _ _ hget => resolve_of_hit hget, ?_, ?_,
    fun hnamed _ _ _ hne hinitial => resolve_of_named hnamed hne hinitial⟩
  · intro key payload? e hfailed
    obtain ⟨hmissed, hleft⟩ := resolve_of_error hfailed
    refine ⟨?_, fun payload hne => resolve_of_sourced hne fun handle hget => ?_⟩
    · rw [after_concat, perform, hleft]
    · rw [hmissed] at hget
      cases hget
  · obtain ⟨made, hledger⟩ := exists_ledger calls
    refine ⟨made, fun earlier call key handle hinitial hserved => ?_⟩
    have hentry := hledger.served earlier call key handle hinitial hserved
    exact ⟨hentry, hledger.sourced _ (List.mem_of_getElem? hentry)⟩

/-! ### A payload and bytes that are none -/

/-- The payload of the message of `basePool`. -/
def basePayload : Bytes :=
  Gzip.compress (Payload.frame "demo.Base" (.declared Schema.baseUnit [])) 0

theorem decode_basePayload :
    Payload.decode basePayload = .ok ⟨Schema.basePool, 0, Nat.one_pos⟩ := by
  rw [basePayload, Payload.decode, Gzip.decompress_compress]
  with_unfolding_all rfl

/-- Bytes are refused, then a payload is given twice under its hash, the cache being cleared in
between. -/
def baseCalls : List CacheCall :=
  [.resolve ⟨"demo.Base", .of [0]⟩ (some [0]),
    .resolve ⟨"demo.Base", .of basePayload⟩ (some basePayload),
    .clear,
    .resolve ⟨"demo.Base", .of [0]⟩ (some [0]),
    .resolve ⟨"demo.Base", .of basePayload⟩ (some basePayload)]

theorem baseCalls_named : CacheCall.Named baseCalls := by
  have hapart : ContentHash.of [0] ≠ ContentHash.of basePayload := by decide +kernel
  have hgiven : ∀ key payload, .resolve key (some payload) ∈ baseCalls →
      key.hash = .of payload ∧ (payload = [0] ∨ payload = basePayload) := by
    intro key payload hmem
    simp only [baseCalls, List.mem_cons, CacheCall.resolve.injEq, Option.some.injEq, reduceCtorEq,
      List.not_mem_nil, or_false, false_or] at hmem
    rcases hmem with ⟨rfl, rfl⟩ | ⟨rfl, rfl⟩ | ⟨rfl, rfl⟩ | ⟨rfl, rfl⟩ <;> simp
  refine ⟨fun key payload hmem _ => (hgiven key payload hmem).1, ?_⟩
  intro key key' payload payload' hmem hmem' _ _ hhash
  obtain ⟨-, rfl | rfl⟩ := hgiven key payload hmem <;>
    obtain ⟨-, rfl | rfl⟩ := hgiven key' payload' hmem'
  · rfl
  · exact absurd hhash hapart
  · exact absurd hhash.symm hapart
  · rfl

/-- After these calls the key of the payload has a handle, whatever bytes come with it. -/
theorem history_transparent_baseCalls : ∃ handle,
    handle.schema = ⟨Schema.basePool, 0, Nat.one_pos⟩ ∧
      (runOn (resolve ⟨"demo.Base", .of basePayload⟩ (some [0])) (after baseCalls)).1 =
        .ok handle := by
  have hne : basePayload ≠ [] := by decide +kernel
  obtain ⟨hkept, hhit, -, -, hnamed⟩ := history_transparent baseCalls
  have hlast := hnamed baseCalls_named (baseCalls.take 4) _ _ hne (List.prefix_refl baseCalls)
  rw [decode_basePayload] at hlast
  obtain ⟨handle, hrun, hschema⟩ := map_eq_ok.mp hlast
  refine ⟨handle, hschema, ?_⟩
  rw [hhit _ handle ((hkept _ handle).mpr ⟨baseCalls.take 4, _, [], rfl, List.not_mem_nil, hrun⟩)]

end SchemaCache

end CellFilter
