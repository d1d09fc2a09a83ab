import CashHerald.Ledger.Cursor
import Mathlib

/-!
Wire formats of ledger data and the decoders that read them. Main statements: what decoders read one
after the other is written one after the other, and a format that a decoder reads leaves no choice
of where a value ends.
-/

namespace CashHerald.Ledger

/-- A format says which octets write a value. -/
abbrev Format (Value : Type) := Value → Octets → Prop

namespace Cursor

@[simp] theorem rest_advance (cursor : Cursor) (count : Nat) :
    (cursor.advance count).rest = cursor.rest.drop count := rfl

@[simp] theorem position_advance (cursor : Cursor) (count : Nat) :
    (cursor.advance count).position = cursor.position + count := rfl

@[simp] theorem advance_advance (cursor : Cursor) (first second : Nat) :
    (cursor.advance first).advance second = cursor.advance (first + second) := by
  simp only [advance, List.drop_drop, Nat.add_assoc, Nat.sub_sub]

/-- The octets between a cursor and the one behind its first octets are these octets. -/
theorem segment_advance {cursor : Cursor} {octets : Octets} (leads : octets <+: cursor.rest) :
    cursor.segment (cursor.advance octets.length) = octets := by
  rw [segment, position_advance, Nat.add_sub_cancel_left]
  exact (List.prefix_iff_eq_take.mp leads).symm

end Cursor

namespace Decoder

variable {Value Other : Type}

/-- Two decoders read one after the other. -/
theorem bind_eq_ok_iff {first : Decoder Value} {second : Value → Decoder Other} {cursor last : Cursor}
    {result : Other} :
    (first >>= second) cursor = .ok (result, last) ↔
      ∃ value middle, first cursor = .ok (value, middle) ∧
        second value middle = .ok (result, last) := by
  change (first cursor >>= fun read => second read.1 read.2) = _ ↔ _
  cases first cursor with
  | error reason =>
    constructor
    · intro impossible
      cases impossible
    · intro impossible
      obtain ⟨value, middle, read, -⟩ := impossible
      cases read
  | ok read =>
    constructor
    · intro later
      exact ⟨read.1, read.2, rfl, later⟩
    · intro parts
      obtain ⟨value, middle, same, later⟩ := parts
      cases same
      exact later

/-- A decoder reads a format if it succeeds exactly where the octets of a value stand, whatever
follows them, and then stops behind them. -/
def Reads (decoder : Decoder Value) (format : Format Value) : Prop :=
  ∀ cursor value next, decoder cursor = .ok (value, next) ↔
    ∃ octets, octets <+: cursor.rest ∧ format value octets ∧ next = cursor.advance octets.length

namespace Reads

variable {decoder : Decoder Value} {format : Format Value}

theorem congr {other : Format Value} (reads : decoder.Reads format)
    (same : ∀ value octets, format value octets ↔ other value octets) : decoder.Reads other := by
  intro cursor value next
  simp only [reads cursor value next, same]

/-- What is read in two parts is written in two parts. -/
theorem bind {next : Value → Decoder Other} {formats : Value → Format Other}
    (reads : decoder.Reads format) (readsNext : ∀ value, (next value).Reads (formats value)) :
    (decoder >>= next).Reads fun result octets => ∃ value front back,
      octets = front ++ back ∧ format value front ∧ formats value result back := by
  intro cursor result last
  rw [bind_eq_ok_iff]
  constructor
  · intro parts
    obtain ⟨value, middle, first, second⟩ := parts
    obtain ⟨front, frontLeads, frontWritten, rfl⟩ := (reads cursor value middle).mp first
    obtain ⟨back, backLeads, backWritten, rfl⟩ := (readsNext value _ result last).mp second
    obtain ⟨later, whole⟩ := frontLeads
    rw [Cursor.rest_advance, ← whole, List.drop_left] at backLeads
    refine ⟨front ++ back, ?_, ⟨value, front, back, rfl, frontWritten, backWritten⟩, ?_⟩
    · rw [← whole]
      exact (List.prefix_append_right_inj front).mpr backLeads
    · rw [Cursor.advance_advance, List.length_append]
  · intro parts
    obtain ⟨octets, ⟨later, whole⟩, ⟨value, front, back, rfl, frontWritten, backWritten⟩, rfl⟩ := parts
    refine ⟨value, cursor.advance front.length, ?_, ?_⟩
    · rw [reads]
      exact ⟨front, ⟨back ++ later, by rw [← whole, List.append_assoc]⟩, frontWritten, rfl⟩
    · rw [readsNext value]
      refine ⟨back, ?_, backWritten, ?_⟩
      · rw [Cursor.rest_advance, ← whole, List.append_assoc, List.drop_left]
        exact List.prefix_append back later
      · rw [Cursor.advance_advance, List.length_append]

end Reads

/-- A value that is not read is written in no octets. -/
theorem reads_pure (value : Value) :
    Reads (pure value) fun result octets => result = value ∧ octets = [] := by
  intro cursor result next
  constructor
  · intro done
    cases done
    exact ⟨[], List.nil_prefix, ⟨rfl, rfl⟩, rfl⟩
  · intro done
    obtain ⟨octets, -, ⟨rfl, rfl⟩, rfl⟩ := done
    rfl

/-- A field of octets is written as it is. -/
theorem reads_take (count : Nat) :
    (take count).Reads fun field octets => field = octets ∧ octets.length = count := by
  intro cursor field next
  rw [take_eq_ok_iff]
  constructor
  · intro taken
    obtain ⟨enough, rfl, rfl⟩ := taken
    have length : (cursor.rest.take count).length = count := List.length_take_of_le enough
    exact ⟨_, List.take_prefix count cursor.rest, ⟨rfl, length⟩, by rw [length]⟩
  · intro written
    obtain ⟨octets, leads, ⟨rfl, rfl⟩, rfl⟩ := written
    exact ⟨leads.length_le, List.prefix_iff_eq_take.mp leads, rfl⟩

namespace Reads

variable {decoder : Decoder Value} {format : Format Value}

/-- What is made of a value that was read is written as the value is. -/
theorem map (reads : decoder.Reads format) (make : Value → Other) :
    Reads (decoder >>= fun value => pure (make value)) fun result octets =>
      ∃ value, format value octets ∧ result = make value := by
  apply (reads.bind fun value => reads_pure (make value)).congr
  intro result octets
  constructor
  · intro parts
    obtain ⟨value, front, back, whole, written, made, rfl⟩ := parts
    rw [List.append_nil] at whole
    exact ⟨value, whole ▸ written, made⟩
  · intro made
    obtain ⟨value, written, made⟩ := made
    exact ⟨value, octets, [], (List.append_nil octets).symm, written, made, rfl⟩

/-- A decoder may keep the octets that it has read. -/
theorem keeping (reads : decoder.Reads format) (make : Octets → Value → Other) :
    Reads (do
        let first ← get
        let value ← decoder
        let last ← get
        pure (make (first.segment last) value))
      fun result octets => ∃ value, format value octets ∧ result = make octets value := by
  intro cursor result next
  change (do
      let value ← decoder
      let last ← get
      pure (make (cursor.segment last) value) : Decoder Other) cursor = _ ↔ _
  rw [bind_eq_ok_iff]
  constructor
  · intro parts
    obtain ⟨value, last, read, made⟩ := parts
    obtain ⟨octets, leads, written, rfl⟩ := (reads cursor value last).mp read
    cases made
    exact ⟨octets, leads, ⟨value, written, by rw [Cursor.segment_advance leads]⟩, rfl⟩
  · intro kept
    obtain ⟨octets, leads, ⟨value, written, rfl⟩, rfl⟩ := kept
    refine ⟨value, _, (reads cursor value _).mpr ⟨octets, leads, written, rfl⟩, ?_⟩
    change Except.ok _ = _
    rw [Cursor.segment_advance leads]

/-- Octets start with at most one value, and it ends at one place. -/
theorem unique (reads : decoder.Reads format) {value other : Value} {octets others : Octets}
    {rest remainder : Octets} (written : format value octets) (otherWritten : format other others)
    (same : octets ++ rest = others ++ remainder) :
    value = other ∧ octets = others ∧ rest = remainder := by
  have read := (reads (.start (octets ++ rest)) value _).mpr
    ⟨octets, List.prefix_append octets rest, written, rfl⟩
  have otherRead := (reads (.start (octets ++ rest)) other _).mpr
    ⟨others, same ▸ List.prefix_append others remainder, otherWritten, rfl⟩
  rw [read] at otherRead
  have outcome : (value, (Cursor.start (octets ++ rest)).advance octets.length) =
      (other, (Cursor.start (octets ++ rest)).advance others.length) := Except.ok.inj otherRead
  have place := congrArg (fun result => result.2.position) outcome
  have length : octets.length = others.length := by
    simpa using place
  exact ⟨congrArg Prod.fst outcome, List.append_inj same length⟩

/-- Values that are written one behind the other leave no choice of where each one ends. -/
theorem parts_unique (reads : decoder.Reads format) {values : List Value} {parts others : List Octets}
    (written : List.Forall₂ format values parts) (otherWritten : List.Forall₂ format values others)
    (same : parts.flatten = others.flatten) : parts = others := by
  induction written generalizing others with
  | nil =>
    cases otherWritten
    rfl
  | cons first _ inductionHypothesis =>
    cases otherWritten with
    | cons otherFirst otherRest =>
      obtain ⟨-, rfl, sameRest⟩ := reads.unique first otherFirst same
      rw [inductionHypothesis otherRest sameRest]

end Reads

/-- A number in a field of `width` octets, the least significant first. -/
theorem reads_number (width : Nat) :
    (number width).Reads fun value octets =>
      value < 256 ^ width ∧ octets = Octets.littleEndian width value := by
  apply ((reads_take width).map Octets.ofLittleEndian).congr
  intro value octets
  rw [Octets.eq_littleEndian_iff]
  constructor
  · intro read
    obtain ⟨field, ⟨rfl, length⟩, same⟩ := read
    exact ⟨length, same⟩
  · intro read
    exact ⟨octets, ⟨rfl, read.1⟩, read.2⟩

theorem reads_word32 :
    word32.Reads fun word octets => octets = Octets.littleEndian 4 word.toNat := by
  apply ((reads_number 4).map UInt32.ofNat).congr
  intro word octets
  constructor
  · intro read
    obtain ⟨value, ⟨fits, rfl⟩, rfl⟩ := read
    rw [UInt32.toNat_ofNat_of_lt' fits]
  · intro written
    exact ⟨word.toNat, ⟨word.toNat_lt, written⟩, UInt32.ofNat_toNat.symm⟩

theorem reads_word64 :
    word64.Reads fun word octets => octets = Octets.littleEndian 8 word.toNat := by
  apply ((reads_number 8).map UInt64.ofNat).congr
  intro word octets
  constructor
  · intro read
    obtain ⟨value, ⟨fits, rfl⟩, rfl⟩ := read
    rw [UInt64.toNat_ofNat_of_lt' fits]
  · intro written
    exact ⟨word.toNat, ⟨word.toNat_lt, written⟩, UInt64.ofNat_toNat.symm⟩

theorem items_zero (item : Decoder Value) : items item 0 = pure [] := rfl

/-- The first item is read before the others. -/
theorem items_succ (item : Decoder Value) (count : Nat) :
    items item (count + 1) =
      item >>= fun value => items item count >>= fun later => pure (value :: later) := by
  funext cursor
  change itemsBehind item (count + 1) [] cursor = (item cursor >>= fun read =>
    items item count read.2 >>= fun last => Except.ok (read.1 :: last.1, last.2))
  rw [itemsBehind]
  cases item cursor with
  | error reason => rfl
  | ok read =>
    change itemsBehind item count [read.1] read.2 = items item count read.2 >>= _
    rw [itemsBehind_eq]
    cases items item count read.2 <;> rfl

/-- Items are read one behind the other. -/
theorem reads_items {item : Decoder Value} {format : Format Value} (reads : item.Reads format)
    (count : Nat) :
    (items item count).Reads fun values octets =>
      values.length = count ∧ ∃ parts, List.Forall₂ format values parts ∧ octets = parts.flatten := by
  induction count with
  | zero =>
    rw [items_zero]
    apply (reads_pure []).congr
    intro values octets
    constructor
    · intro empty
      obtain ⟨rfl, rfl⟩ := empty
      exact ⟨rfl, [], List.Forall₂.nil, rfl⟩
    · intro parts
      obtain ⟨none, parts, written, rfl⟩ := parts
      have noValues := List.eq_nil_of_length_eq_zero none
      subst noValues
      cases written
      exact ⟨rfl, rfl⟩
  | succ count inductionHypothesis =>
    rw [items_succ]
    apply (reads.bind fun value => inductionHypothesis.map (value :: ·)).congr
    intro values octets
    constructor
    · intro read
      obtain ⟨value, front, back, rfl, written, later, ⟨number, parts, others, rfl⟩, rfl⟩ := read
      exact ⟨congrArg (· + 1) number, front :: parts, .cons written others, rfl⟩
    · intro listed
      obtain ⟨number, parts, written, rfl⟩ := listed
      cases written with
      | nil => cases number
      | cons first others =>
        exact ⟨_, _, _, rfl, first, _, ⟨Nat.succ.inj number, _, others, rfl⟩, rfl⟩

end Decoder

end CashHerald.Ledger
