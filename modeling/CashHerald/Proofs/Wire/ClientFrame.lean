import CashHerald.Proofs.Wire.Chunks
import CashHerald.Proofs.Wire.RawFrame

/-!
Frames as a client writes them. Main statement: the parser reads such a frame back and leaves what
follows it in the buffer, it leaves every shorter front of the frame as it is and asks for more, and
a buffer that it refuses is left as it is and refused in the same way whatever is added.
-/

namespace CashHerald.Wire

namespace LengthForm

/-- The shortest form for a length. -/
def shortest (length : Nat) : LengthForm :=
  if length < 126 then .short else if length ≤ 65535 then .medium else .long

theorem lt_room_shortest {length : Nat} (fits : length < 2 ^ 64) :
    length < (shortest length).room := by
  unfold shortest
  split
  · assumption
  · split
    · simp only [room]
      omega
    · exact fits

end LengthForm

namespace RawFrame

/-- The frame in which a client sends a whole message. -/
def ofClient (opcode : Opcode) (payload : Octets) (mask : Mask) (fits : payload.length < 2 ^ 64) :
    RawFrame where
  fin := true
  reserved := 0
  opcode := ⟨opcode.value.toNat, by cases opcode <;> decide⟩
  mask := some mask
  form := .shortest payload.length
  payload := payload
  fits := LengthForm.lt_room_shortest fits

section Client

variable (opcode : Opcode) (payload : Octets) (mask : Mask) (fits : payload.length < 2 ^ 64)

theorem kind?_ofClient : (ofClient opcode payload mask fits).kind? = some opcode := by
  cases opcode <;> rfl

/-- The length stands behind the mask bit in the second octet, or behind that octet. -/
theorem secondOctet_ofClient :
    (ofClient opcode payload mask fits).secondOctet ::
        (ofClient opcode payload mask fits).form.field payload.length =
      Frame.lengthField 0x80 payload.length := by
  simp only [secondOctet, ofClient, LengthForm.shortest, Frame.lengthField, Option.isSome_some,
    Bool.toNat_true]
  split
  · rename_i small
    have direct : ∀ length : Fin 126,
        UInt8.ofNat (128 * 1 + length) = 0x80 ||| UInt8.ofNat length := by decide
    exact congrArg (· :: []) (direct ⟨payload.length, small⟩)
  · split
    · have marker : UInt8.ofNat (128 * 1 + 126) = 0x80 ||| 126 := by decide
      exact congrArg (· :: _) marker
    · have marker : UInt8.ofNat (128 * 1 + 127) = 0x80 ||| 127 := by decide
      exact congrArg (· :: _) marker

/-- The octets of the frame are those that a client writes. -/
theorem octets_ofClient :
    (ofClient opcode payload mask fits).octets = Frame.encodeMasked opcode payload mask := by
  have first : (ofClient opcode payload mask fits).firstOctet = Frame.firstOctet opcode true := by
    have every : ∀ opcode : Opcode,
        UInt8.ofNat (128 * 1 + 16 * 0 + opcode.value.toNat) = Frame.firstOctet opcode true := by
      intro opcode
      cases opcode <;> decide
    exact every opcode
  rw [octets, first, ← List.cons_append, Frame.encodeMasked]
  exact congrArg (fun field => _ :: (field ++ _)) (secondOctet_ofClient opcode payload mask fits)

end Client

end RawFrame

namespace Frame

/-- A parse on a buffer: what it returns, and what it leaves in the buffer. -/
def takeFrom (buffer : Octets) : Except Violation (Option Frame) × Octets :=
  match parse buffer with
  | .error violation => (.error violation, buffer)
  | .ok none => (.ok none, buffer)
  | .ok (some (frame, rest)) => (.ok (some frame), rest)

theorem takeFrom_eq_error_iff {buffer left : Octets} {violation : Violation} :
    takeFrom buffer = (.error violation, left) ↔
      parse buffer = .error violation ∧ left = buffer := by
  unfold takeFrom
  rcases parse buffer with found | _ | ⟨frame, rest⟩ <;> simp [eq_comm]

/-- A decoder takes frames from its buffer until there is none, or one is refused. -/
theorem drain_eq_takeFrom (earlier : List Message) (started : Option Reassembly.Started)
    (buffer : Octets) :
    Reassembly.drain earlier started buffer =
      match takeFrom buffer with
      | (.error violation, left) => (.error violation, ⟨left, started⟩)
      | (.ok none, left) => (.ok earlier.reverse, ⟨left, started⟩)
      | (.ok (some frame), left) =>
        match Reassembly.accept started frame with
        | (next, .error violation) => (.error violation, ⟨left, next⟩)
        | (next, .ok message) => Reassembly.drain (message.toList ++ earlier) next left := by
  cases said : parse buffer with
  | error violation => simp only [Reassembly.drain_of_error said, takeFrom, said]
  | ok found =>
    rcases found with _ | ⟨frame, rest⟩
    · simp only [Reassembly.drain_of_incomplete said, takeFrom, said]
    · rcases accepted : Reassembly.accept started frame with ⟨next, violation | message⟩ <;>
        simp only [Reassembly.drain_of_frame said, takeFrom, said, accepted]

variable {opcode : Opcode} {payload : Octets}

/-- A frame of a client that keeps the limits is read back, whatever follows it. -/
theorem parse_encodeMasked (small : payload.length ≤ sizeLimit)
    (control : opcode.isControl = true → payload.length ≤ 125) (mask : Mask) (rest : Octets) :
    parse (encodeMasked opcode payload mask ++ rest) =
      .ok (some (⟨opcode, true, payload⟩, rest)) := by
  have fits : payload.length < 2 ^ 64 := Nat.lt_of_le_of_lt small (by decide)
  have known := RawFrame.kind?_ofClient opcode payload mask fits
  have allowed : ¬(opcode.isControl = true ∧ (true = false ∨ payload.length > 125)) := by
    rintro ⟨controls, absurd | long⟩
    · cases absurd
    · exact Nat.not_le_of_gt long (control controls)
  rw [← RawFrame.octets_ofClient opcode payload mask fits, RawFrame.parse_octets, known]
  have plain : (RawFrame.ofClient opcode payload mask fits).reserved.val = 0 := rfl
  have masked : (RawFrame.ofClient opcode payload mask fits).mask ≠ none := nofun
  simp only [plain, masked, ne_eq, not_true_eq_false, if_false]
  exact (if_neg allowed).trans (if_neg (Nat.not_lt_of_le small))

/-- A front of a frame that is cut short is incomplete: what the parser says of a front it says of
the frame too, unless it asks for more. -/
theorem parse_of_append_eq {front back buffer : Octets} {frame : Frame}
    (whole : parse buffer = .ok (some (frame, []))) (cut : front ++ back = buffer)
    (short : back ≠ []) : parse front = .ok none := by
  subst cut
  rcases said : parse front with violation | _ | ⟨found, rest⟩
  · rw [parse_append_of_error said] at whole
    cases whole
  · rfl
  · have again := parse_append_of_frame said back
    rw [whole, Except.ok.injEq, Option.some.injEq, Prod.mk.injEq] at again
    exact absurd (List.append_eq_nil_iff.mp again.2.symm).2 short

/-- The frames of clients that keep the limits are read back one after the other; a front that is
cut short is left in the buffer until the rest has come; and a refused buffer is left as it is and
stays refused. So a decoder takes frames from its buffer until there is none or one is refused. -/
theorem takeFrom_encodeMasked :
    (∀ opcode payload mask rest, payload.length ≤ sizeLimit →
      (opcode.isControl = true → payload.length ≤ 125) →
        takeFrom (encodeMasked opcode payload mask ++ rest) =
          (.ok (some ⟨opcode, true, payload⟩), rest)) ∧
    (∀ opcode payload mask front back, payload.length ≤ sizeLimit →
      (opcode.isControl = true → payload.length ≤ 125) →
        front ++ back = encodeMasked opcode payload mask → back ≠ [] →
          takeFrom front = (.ok none, front)) ∧
    (∀ buffer violation left, takeFrom buffer = (.error violation, left) →
      left = buffer ∧
        ∀ more, takeFrom (buffer ++ more) = (.error violation, buffer ++ more)) ∧
    ∀ earlier started buffer, Reassembly.drain earlier started buffer =
      match takeFrom buffer with
      | (.error violation, left) => (.error violation, ⟨left, started⟩)
      | (.ok none, left) => (.ok earlier.reverse, ⟨left, started⟩)
      | (.ok (some frame), left) =>
        match Reassembly.accept started frame with
        | (next, .error violation) => (.error violation, ⟨left, next⟩)
        | (next, .ok message) => Reassembly.drain (message.toList ++ earlier) next left := by
  refine ⟨?_, ?_, ?_, drain_eq_takeFrom⟩
  · intro opcode payload mask rest small control
    simp only [takeFrom, parse_encodeMasked small control]
  · intro opcode payload mask front back small control cut short
    have whole := parse_encodeMasked small control mask []
    rw [List.append_nil] at whole
    simp only [takeFrom, parse_of_append_eq whole cut short]
  · intro buffer violation left refused
    obtain ⟨said, same⟩ := takeFrom_eq_error_iff.mp refused
    exact ⟨same, fun more => takeFrom_eq_error_iff.mpr ⟨parse_append_of_error said more, rfl⟩⟩

theorem takeFrom_greeting :
    let greeting := encodeMasked .text [72, 105] ⟨1, 2, 3, 4⟩
    greeting = [0x81, 0x82, 1, 2, 3, 4, 73, 107] ∧
      takeFrom (greeting ++ [0x89]) = (.ok (some ⟨.text, true, [72, 105]⟩), [0x89]) ∧
      takeFrom (greeting.take 7) = (.ok none, greeting.take 7) ∧
      takeFrom [0xc1, 0x82, 7] = (.error .reservedBits, [0xc1, 0x82, 7]) := by
  have refused : takeFrom [0xc1, 0x82] = (.error .reservedBits, [0xc1, 0x82]) := by decide
  obtain ⟨reads, waits, refuses, -⟩ := takeFrom_encodeMasked
  refine ⟨by decide, reads .text [72, 105] ⟨1, 2, 3, 4⟩ [0x89] (by decide) nofun, ?_,
    (refuses _ _ _ refused).2 [7]⟩
  exact waits .text [72, 105] ⟨1, 2, 3, 4⟩ _ [107] (by decide) nofun (by decide) nofun

end Frame

end CashHerald.Wire
