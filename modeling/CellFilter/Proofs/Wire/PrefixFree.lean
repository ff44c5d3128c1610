import CellFilter.Filter.Encoding
import CellFilter.Payload.Basic
import CellFilter.Proofs.Wire.Items

/-!
# No encoding is the beginning of another

A reader is steady if bytes that are put behind its input change nothing about what it takes; it
only leaves them.  Readers look at the number of bytes that are left in two places, where a count is
compared with it, and more bytes only make room for more.  So a steady reader of whole inputs
refuses every input that goes on after an accepted one, and every input that stops inside of one.

* `Steady`: more bytes change nothing; `Steady.bind` and `Steady.remaining` chain such readers.
* `ColumnPredicate.steady_read`, `PredicateGroup.steady_readWithin`, `Payload.steady_read`: the
  readers of the formats are steady.
* `PrefixFree`: no accepted byte string is the beginning of another.
* `framings_prefixFree`: **the formats** are prefix-free.
-/

namespace CellFilter

open Outcome

variable {α β : Type}

/-- What the reader takes off an input, it takes as well when more bytes follow. -/
def Steady (reader : Reader α) : Prop :=
  ∀ input a rest, reader input = .ok (a, rest) →
    ∀ more, reader (input ++ more) = .ok (a, rest ++ more)

namespace Steady

variable {reader : Reader α} {next : α → Reader β}

theorem pure (a : α) : Steady (Pure.pure a) := by
  intro input b rest h more
  cases h
  rfl

theorem throw (e : FilterError) : Steady (MonadExcept.throw e : Reader α) := by
  intro input a rest h more
  cases h

theorem bind (h : Steady reader) (hn : ∀ a, Steady (next a)) : Steady (reader >>= next) := by
  intro input b rest hinput more
  obtain ⟨⟨a, left⟩, ha, hb⟩ := bind_eq_ok.mp hinput
  rw [Reader.bind_apply, h input a left ha more]
  exact hn a left b rest hb more

/-- A step that reads nothing. -/
theorem lift (x : Except FilterError α) : Steady (liftM x : Reader α) := by
  intro input a rest h more
  cases x with
  | error e => cases h
  | ok b =>
    cases h
    rfl

theorem andReturn (h : Steady reader) (f : α → β) :
    Steady (reader >>= fun a => Pure.pure (f a)) := h.bind fun a => pure (f a)

/-- Looking at how many bytes are left, if more of them are as good. -/
theorem remaining {next : Nat → Reader β} (hn : ∀ n, Steady (next n))
    (hmore : ∀ m n input r, m ≤ n → next m input = .ok r → next n input = .ok r) :
    Steady (Frame.remaining >>= next) := by
  intro input b rest hinput more
  have hleft : next input.length input = .ok (b, rest) := hinput
  have hroom : input.length ≤ (input ++ more).length := by simp
  show next (input ++ more).length (input ++ more) = _
  exact hn _ input b rest (hmore _ _ input _ hroom hleft) more

end Steady

/-- What does not look ahead does not care for more bytes. -/
theorem TakesFront.steady {reader : Reader α} (h : TakesFront reader) : Steady reader := by
  intro input a rest hread more
  obtain ⟨taken, rfl, htaken⟩ := h input a rest hread
  rw [List.append_assoc]
  exact htaken _

namespace Frame

/-- A count or length fits all the more when more bytes follow. -/
theorem steady_length : Steady length := by
  refine takesFront_varint.steady.bind fun n => .remaining (fun available => ?_) ?_
  · split_ifs
    · exact .pure n
    · exact .throw _
  · intro m available input r hle h
    split_ifs at h with hm
    · rw [if_pos (by omega)]
      exact h
    · cases h

theorem steady_many {reader : Reader α} (h : Steady reader) :
    ∀ count : Nat, Steady (many count reader)
  | 0 => .pure []
  | count + 1 => h.bind fun first => (steady_many h count).andReturn (first :: ·)

end Frame

/-! ## The formats -/

open CellFilter.Frame

theorem ColumnPredicate.steady_readComparator (comparators : ComparatorRegistry) :
    Steady (readComparator comparators) := by
  refine takesFront_bool.steady.bind fun b => ?_
  split_ifs
  · refine takesFront_text.steady.bind fun kind => takesFront_bytes.steady.bind fun state => ?_
    exact (Steady.lift _).andReturn some
  · exact .pure none

theorem ColumnPredicate.steady_read (comparators : ComparatorRegistry) :
    Steady (read comparators) := by
  refine takesFront_bytes.steady.bind fun family => takesFront_bytes.steady.bind fun qualifier => ?_
  refine takesFront_byte.steady.bind fun ordinal => (Steady.lift _).bind fun compareOp => ?_
  refine takesFront_byte.steady.bind fun number => (Steady.lift _).bind fun matchOp => ?_
  refine takesFront_bool.steady.bind fun filterIfMissing => ?_
  refine takesFront_bool.steady.bind fun latestVersionOnly => ?_
  refine takesFront_text.steady.bind fun path => ?_
  refine takesFront_optional.steady.bind fun scalar => takesFront_optional.steady.bind fun message => ?_
  refine (Steady.lift _).bind fun operand? => ?_
  refine takesFront_text.steady.bind fun name => takesFront_wide.steady.bind fun hash => ?_
  refine takesFront_optional.steady.bind fun payload => ?_
  exact (steady_readComparator comparators).andReturn _

/-- Everything inside of a group was taken off before it is looked at. -/
theorem PredicateGroup.steady_readWithin (comparators : ComparatorRegistry) :
    ∀ levels : Nat, Steady (readWithin comparators levels)
  | 0 => .throw _
  | levels + 1 => by
    refine takesFront_bytes.steady.bind fun compressed => (Steady.lift _).bind fun contents => ?_
    exact (Steady.lift _).andReturn _

namespace Payload

theorem steady_iterate {σ : Type} {step : σ → Reader σ} (h : ∀ s, Steady (step s)) :
    ∀ (count : Nat) (s : σ), Steady (iterate step count s)
  | 0, s => .pure s
  | count + 1, s => (h s).bind (steady_iterate h count)

/-- A unit may claim all the more units below it when more bytes follow. -/
theorem steady_readUnit : ∀ (levels : Nat) (pool : SchemaPool), Steady (readUnit levels pool)
  | 0, _ => .throw _
  | levels + 1, pool => by
    refine takesFront_text.steady.bind fun name => takesFront_bytes.steady.bind fun descriptor => ?_
    refine takesFront_varint.steady.bind fun count => ?_
    have hbelow : Steady (iterate (readUnit levels) count pool >>= fun pool =>
        (liftM (addUnit pool name descriptor) : Reader SchemaPool)) :=
      (steady_iterate (steady_readUnit levels) count pool).bind fun _ => .lift _
    refine .remaining (fun left => ?_) ?_
    · dsimp only
      split_ifs
      · exact (Steady.throw _).bind fun _ => hbelow
      · exact hbelow
    · intro m left input r hle h
      dsimp only at h ⊢
      split_ifs at h with hm
      · cases h
      · have hroom : ¬ left / 3 < count := by omega
        rw [if_neg hroom]
        exact h

theorem steady_read : Steady read := by
  refine takesFront_byte.steady.bind fun found => ?_
  have hunits : Steady (Frame.text >>= fun target => readUnit (maxDepth + 1) .empty >>= fun pool =>
      (Pure.pure (target, pool) : Reader (String × SchemaPool))) :=
    takesFront_text.steady.bind fun target => (steady_readUnit _ _).andReturn _
  dsimp only
  split_ifs
  · exact (Steady.throw _).bind fun _ => hunits
  · exact hunits

end Payload

/-! ## Whole inputs -/

/-- No accepted byte string is the beginning of another: what goes on after one is complained about,
and what stops inside of one is refused. -/
def PrefixFree (decode : Bytes → Except FilterError α) (fault : PayloadFault) : Prop :=
  ∀ b a, decode b = .ok a →
    (∀ x, x ≠ [] → decode (b ++ x) = .error (.malformedPayload fault)) ∧
      ∀ c, c <+: b → c ≠ b → ∃ e, decode c = .error e

namespace PrefixFree

variable {decode : Bytes → Except FilterError α} {fault : PayloadFault}

/-- A byte string that stops inside of an accepted one would be accepted, and go on there. -/
theorem of_trailing (h : ∀ b a, decode b = .ok a → ∀ x, x ≠ [] →
    decode (b ++ x) = .error (.malformedPayload fault)) : PrefixFree decode fault := by
  intro b a hb
  refine ⟨h b a hb, fun c hc hne => ?_⟩
  obtain ⟨x, rfl⟩ := hc
  have hx : x ≠ [] := by
    rintro rfl
    exact hne (List.append_nil c).symm
  cases hdecode : decode c with
  | error e => exact ⟨e, rfl⟩
  | ok a' =>
    rw [h c a' hdecode x hx] at hb
    cases hb

theorem whole {reader : Reader α} (h : Steady reader) (fault : PayloadFault) :
    PrefixFree (Frame.whole reader fault) fault := by
  refine of_trailing fun b a hb x hx => ?_
  obtain ⟨⟨a', rest⟩, hread, hrest⟩ := bind_eq_ok.mp hb
  have hempty : rest = [] := by
    cases rest with
    | nil => rfl
    | cons c rest => cases hrest
  subst hempty
  rw [Frame.whole, h b a' [] hread x, ok_bind, List.nil_append]
  cases x with
  | nil => exact absurd rfl hx
  | cons c x => rfl

/-- Steps after the whole input was read. -/
theorem bind (h : PrefixFree decode fault) (f : α → Except FilterError β) :
    PrefixFree (fun b => decode b >>= f) fault := by
  refine of_trailing fun b y hb x hx => ?_
  obtain ⟨a, ha, -⟩ := bind_eq_ok.mp hb
  rw [(h b a ha).1 x hx, error_bind]

end PrefixFree

/-- **The formats are prefix-free**: predicates, groups and uncompressed payloads. -/
theorem framings_prefixFree (comparators : ComparatorRegistry) :
    PrefixFree (ColumnPredicate.decode comparators) .trailingAfterPredicate ∧
      PrefixFree (PredicateGroup.decode comparators) .trailingAfterGroup ∧
        PrefixFree Payload.schemaOfBody .trailingAfterRootUnit :=
  ⟨.whole (ColumnPredicate.steady_read comparators) _,
    .whole (PredicateGroup.steady_readWithin comparators _) _,
    (PrefixFree.whole Payload.steady_read _).bind _⟩

end CellFilter
