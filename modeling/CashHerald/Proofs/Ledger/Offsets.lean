import CashHerald.Ledger.Block
import CashHerald.Proofs.Ledger.Counted

/-!
Where octets are missing. However a decoder moves on, the place where its octets end stays the same,
and a field is reported to be missing where it starts. Main statement: octets that end too early end
behind the start of the missing field and in front of its end.
-/

namespace CashHerald.Ledger

/-- The offset at which a cursor's octets end. -/
def Cursor.stop (cursor : Cursor) : Nat :=
  cursor.position + cursor.remaining

/-- A fault is true of octets that end at an offset: a field that is missing starts at the end or in
front of it, and ends behind it. -/
def DecodeError.TrueOf (stop : Nat) : DecodeError → Prop
  | .unexpectedEnd offset needed => offset ≤ stop ∧ stop < offset + needed
  | .trailingOctets _ => True
  | .lengthOverflow _ => True

namespace Decoder

variable {Value Other : Type}

section Bind

variable {first : Decoder Value} {cursor : Cursor}

theorem bind_of_ok {value : Value} {middle : Cursor} (read : first cursor = .ok (value, middle))
    (second : Value → Decoder Other) : (first >>= second) cursor = second value middle := by
  change (first cursor >>= fun result => second result.1 result.2) = _
  rw [read]
  rfl

theorem bind_of_error {reason : DecodeError} (failed : first cursor = .error reason)
    (second : Value → Decoder Other) : (first >>= second) cursor = .error reason := by
  change (first cursor >>= fun result => second result.1 result.2) = _
  rw [failed]
  rfl

end Bind

/-- A decoder is honest if it does not lose sight of where its octets end, and fails only for a
reason that is true of them. -/
structure Honest (decoder : Decoder Value) : Prop where
  stop_eq : ∀ {cursor next : Cursor} {value : Value},
    decoder cursor = .ok (value, next) → next.stop = cursor.stop
  trueOf : ∀ {cursor : Cursor} {reason : DecodeError},
    decoder cursor = .error reason → reason.TrueOf cursor.stop

theorem honest_pure (value : Value) : Honest (pure value) := by
  constructor
  · intro cursor next result done
    cases done
    rfl
  · intro cursor reason failed
    cases failed

theorem honest_get : Honest (get : Decoder Cursor) := by
  constructor
  · intro cursor next result done
    cases done
    rfl
  · intro cursor reason failed
    cases failed

/-- A field is missing where fewer octets are left than it has. -/
theorem honest_take (count : Nat) : Honest (take count) := by
  constructor
  · intro cursor next field taken
    obtain ⟨enough, -, rfl⟩ := take_eq_ok_iff.mp taken
    rw [← cursor.remaining_eq] at enough
    simp only [Cursor.stop, Cursor.advance]
    omega
  · intro cursor reason failed
    unfold take at failed
    split at failed
    · rename_i few
      cases failed
      exact ⟨Nat.le_add_right _ _, Nat.add_lt_add_left few _⟩
    · cases failed

namespace Honest

variable {first : Decoder Value} {second : Value → Decoder Other}

theorem bind (honest : first.Honest) (later : ∀ value, (second value).Honest) :
    (first >>= second).Honest := by
  constructor
  · intro cursor next result done
    obtain ⟨value, middle, read, rest⟩ := bind_eq_ok_iff.mp done
    exact ((later value).stop_eq rest).trans (honest.stop_eq read)
  · intro cursor reason failed
    rcases outcome : first cursor with early | ⟨value, middle⟩
    · rw [bind_of_error outcome] at failed
      cases failed
      exact honest.trueOf outcome
    · rw [bind_of_ok outcome] at failed
      rw [← honest.stop_eq outcome]
      exact (later value).trueOf failed

theorem map (honest : first.Honest) (make : Value → Other) :
    Honest (first >>= fun value => pure (make value)) :=
  honest.bind fun value => honest_pure (make value)

theorem items (honest : first.Honest) (count : Nat) : (Decoder.items first count).Honest := by
  induction count with
  | zero => exact honest_pure []
  | succ count inductionHypothesis =>
    rw [items_succ]
    exact honest.bind fun value => inductionHypothesis.map (value :: ·)

/-- An honest decoder that starts in front of some octets speaks of their end. -/
theorem trueOf_start (honest : first.Honest) {raw : Octets} {reason : DecodeError}
    (failed : first (.start raw) = .error reason) : reason.TrueOf raw.length := by
  have said := honest.trueOf failed
  rwa [Cursor.stop, Cursor.start, Nat.zero_add] at said

end Honest

theorem honest_number (width : Nat) : (number width).Honest :=
  (honest_take width).map Octets.ofLittleEndian

theorem honest_word32 : word32.Honest :=
  (honest_number 4).map UInt32.ofNat

theorem honest_word64 : word64.Honest :=
  (honest_number 8).map UInt64.ofNat

end Decoder

namespace CompactSize

open Decoder

theorem honest_number : number.Honest := by
  apply (Decoder.honest_number 1).bind
  intro first
  split
  · exact honest_pure first
  · exact Decoder.honest_number _

/-- A number that promises too much is no missing field. -/
theorem honest_within (limit : Nat → Nat) (announced : Nat) : (within limit announced).Honest := by
  constructor
  · intro cursor next value passed
    rw [within_eq] at passed
    split at passed
    · cases passed
    · cases passed
      rfl
  · intro cursor reason failed
    rw [within_eq] at failed
    split at failed
    · cases failed
      exact trivial
    · cases failed

theorem honest_checked (limit : Nat → Nat) : (checked limit).Honest :=
  honest_number.bind (honest_within limit)

theorem honest_octets : octets.Honest :=
  (honest_checked id).bind honest_take

theorem honest_list {Value : Type} {item : Decoder Value} (honest : item.Honest)
    (smallest : Nat) : (list smallest item).Honest :=
  (honest_checked (· / smallest)).bind honest.items

end CompactSize

open Decoder

theorem Input.honest_decoder : Input.decoder.Honest :=
  (honest_take 32).bind fun _ => honest_word32.bind fun _ => CompactSize.honest_octets.bind
    fun _ => honest_word32.map _

theorem Output.honest_decoder : Output.decoder.Honest :=
  honest_word64.bind fun _ => CompactSize.honest_octets.map _

theorem Transaction.honest_decoder : Transaction.decoder.Honest :=
  honest_get.bind fun _ => honest_word32.bind fun _ =>
    (CompactSize.honest_list Input.honest_decoder _).bind fun _ =>
      (CompactSize.honest_list Output.honest_decoder _).bind fun _ =>
        honest_word32.bind fun _ => honest_get.map _

theorem Block.honest_decoder : Block.decoder.Honest :=
  (honest_take Header.size).bind fun _ =>
    (CompactSize.honest_list Transaction.honest_decoder _).map _

/-- A transaction is refused for a reason that is true of its octets. -/
theorem Transaction.trueOf_of_decode {raw : Octets} {reason : DecodeError}
    (refused : decode raw = .error reason) : reason.TrueOf raw.length := by
  unfold decode at refused
  rcases outcome : decoder (.start raw) with early | ⟨transaction, last⟩
  · rw [outcome] at refused
    cases refused
    exact honest_decoder.trueOf_start outcome
  · rw [outcome] at refused
    change (if last.remaining = 0 then _ else _) = _ at refused
    split at refused <;> cases refused
    exact trivial

/-- A block is refused for a reason that is true of its octets. -/
theorem Block.trueOf_of_decode {raw : Octets} {reason : DecodeError}
    (refused : decode raw = .error reason) : reason.TrueOf raw.length := by
  unfold decode at refused
  rcases outcome : decoder (.start raw) with early | ⟨block, last⟩
  · rw [outcome] at refused
    cases refused
    exact honest_decoder.trueOf_start outcome
  · rw [outcome] at refused
    cases refused

end CashHerald.Ledger
