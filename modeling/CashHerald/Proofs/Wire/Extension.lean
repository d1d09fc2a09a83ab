import CashHerald.Wire.Frame

/-!
Buffers to which octets are added. Main statement: unless the parser asks for more, it says of every
extension of a buffer what it says of the buffer.
-/

namespace CashHerald.Wire.Frame

/-- A complete frame stays as it is, whatever follows the buffer. -/
theorem parse_append_of_frame {buffer later : Octets} {frame : Frame}
    (found : parse buffer = .ok (some (frame, later))) (more : Octets) :
    parse (buffer ++ more) = .ok (some (frame, later ++ more)) := by
  obtain ⟨front, rfl, again⟩ := parse_front found
  rw [List.append_assoc]
  exact again (later ++ more)

/-- A violation in the body is one of opcode and length, whatever the octets are. -/
theorem parseBody_eq_error {opcode : Opcode} {fin : Bool} {length : Nat} {rest : Octets}
    {violation : Violation} (refused : parseBody opcode fin length rest = .error violation)
    (other : Octets) : parseBody opcode fin length other = .error violation := by
  unfold parseBody at refused ⊢
  by_cases malformed : opcode.isControl ∧ (fin = false ∨ length > 125)
  · rw [if_pos malformed] at refused ⊢
    exact refused
  · rw [if_neg malformed] at refused ⊢
    by_cases big : length > sizeLimit
    · rw [if_pos big] at refused ⊢
      exact refused
    · rw [if_neg big] at refused
      cases refused

/-- A violation stays one, whatever follows the buffer. -/
theorem parse_append_of_error {buffer : Octets} {violation : Violation}
    (refused : parse buffer = .error violation) (more : Octets) :
    parse (buffer ++ more) = .error violation := by
  match buffer with
  | [] => cases refused
  | [_] => cases refused
  | first :: second :: rest =>
    simp only [List.cons_append, parse] at refused ⊢
    by_cases reserved : first &&& 0x70 ≠ 0
    · rw [if_pos reserved] at refused ⊢
      exact refused
    · rw [if_neg reserved] at refused ⊢
      cases known : Opcode.ofValue? (first &&& 0x0f) with
      | none =>
        rw [known] at refused
        exact refused
      | some opcode =>
        simp only [known] at refused ⊢
        by_cases unmasked : second &&& 0x80 = 0
        · rw [if_pos unmasked] at refused ⊢
          exact refused
        · rw [if_neg unmasked] at refused ⊢
          cases announced : announcedLength? second rest with
          | none =>
            rw [announced] at refused
            cases refused
          | some read =>
            obtain ⟨field, rfl, again⟩ := announcedLength?_front announced
            simp only [announced] at refused
            rw [List.append_assoc, again]
            exact parseBody_eq_error refused (read.2 ++ more)

end CashHerald.Wire.Frame
