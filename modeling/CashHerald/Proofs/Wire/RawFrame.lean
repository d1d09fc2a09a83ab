import CashHerald.Wire.Frame
import Mathlib

/-!
Complete frames with any header: every value of the final bit, the reserved bits, the opcode and the
mask, and a length in any of its written forms. Main statement: what the parser says of such a
frame, whatever follows it.
-/

namespace CashHerald.Wire

/-- A length stands in the second octet, or in two or eight octets behind it. -/
inductive LengthForm where
  | short
  | medium
  | long
  deriving DecidableEq, Repr

namespace LengthForm

/-- A form holds the lengths below this number. -/
def room : LengthForm → Nat
  | .short => 126
  | .medium => 2 ^ 16
  | .long => 2 ^ 64

/-- The low bits of the second octet. -/
def marker (form : LengthForm) (length : Nat) : Nat :=
  match form with
  | .short => length
  | .medium => 126
  | .long => 127

/-- The octets of the length behind the second octet. -/
def field (form : LengthForm) (length : Nat) : Octets :=
  match form with
  | .short => []
  | .medium => Octets.bigEndian 2 length
  | .long => Octets.bigEndian 8 length

end LengthForm

/-- A complete frame as a peer may write it. The payload is given without its mask. -/
structure RawFrame where
  fin : Bool
  reserved : Fin 8
  opcode : Fin 16
  mask : Option Mask
  form : LengthForm
  payload : Octets
  fits : payload.length < form.room

namespace RawFrame

def firstOctet (frame : RawFrame) : UInt8 :=
  UInt8.ofNat (128 * frame.fin.toNat + 16 * frame.reserved + frame.opcode)

def secondOctet (frame : RawFrame) : UInt8 :=
  UInt8.ofNat (128 * frame.mask.isSome.toNat + frame.form.marker frame.payload.length)

/-- The payload behind its mask, if there is one. -/
def body (frame : RawFrame) : Octets :=
  match frame.mask with
  | none => frame.payload
  | some mask => mask.octets ++ mask.apply frame.payload

/-- The octets of the frame. -/
def octets (frame : RawFrame) : Octets :=
  frame.firstOctet :: frame.secondOctet :: (frame.form.field frame.payload.length ++ frame.body)

/-- The opcode, if the header has a known one. -/
def kind? (frame : RawFrame) : Option Opcode :=
  Opcode.ofValue? (UInt8.ofNat frame.opcode)

/-- Control frames have the opcodes from 8 on. -/
def isControl (frame : RawFrame) : Bool :=
  8 ≤ frame.opcode.val

theorem opcode_of_kind? {frame : RawFrame} {opcode : Opcode} (known : frame.kind? = some opcode) :
    (frame.opcode : Nat) = opcode.value.toNat := by
  have every : ∀ number : Fin 16, Opcode.ofValue? (UInt8.ofNat number) = some opcode →
      (number : Nat) = opcode.value.toNat := by
    cases opcode <;> decide
  exact every frame.opcode known

theorem isSome_kind? (frame : RawFrame) :
    frame.kind?.isSome = decide (frame.opcode.val ∈ [0, 1, 2, 8, 9, 10]) := by
  have every : ∀ number : Fin 16, (Opcode.ofValue? (UInt8.ofNat number)).isSome =
      decide (number.val ∈ [0, 1, 2, 8, 9, 10]) := by
    decide
  exact every frame.opcode

theorem isControl_of_kind? {frame : RawFrame} {opcode : Opcode}
    (known : frame.kind? = some opcode) : opcode.isControl = frame.isControl := by
  have every : ∀ number : Fin 16, Opcode.ofValue? (UInt8.ofNat number) = some opcode →
      opcode.isControl = decide (8 ≤ number.val) := by
    cases opcode <;> decide
  exact every frame.opcode known

theorem firstOctet_reserved (frame : RawFrame) :
    frame.firstOctet &&& 0x70 = 0 ↔ frame.reserved.val = 0 := by
  have every : ∀ (fin : Bool) (reserved : Fin 8) (opcode : Fin 16),
      UInt8.ofNat (128 * fin.toNat + 16 * reserved + opcode) &&& 0x70 = 0 ↔ reserved.val = 0 := by
    decide +kernel
  exact every frame.fin frame.reserved frame.opcode

theorem firstOctet_opcode (frame : RawFrame) :
    frame.firstOctet &&& 0x0f = UInt8.ofNat frame.opcode := by
  have every : ∀ (fin : Bool) (reserved : Fin 8) (opcode : Fin 16),
      UInt8.ofNat (128 * fin.toNat + 16 * reserved + opcode) &&& 0x0f = UInt8.ofNat opcode := by
    decide +kernel
  exact every frame.fin frame.reserved frame.opcode

theorem firstOctet_fin (frame : RawFrame) :
    decide (frame.firstOctet &&& 0x80 ≠ 0) = frame.fin := by
  have every : ∀ (fin : Bool) (reserved : Fin 8) (opcode : Fin 16),
      decide (UInt8.ofNat (128 * fin.toNat + 16 * reserved + opcode) &&& 0x80 ≠ 0) = fin := by
    decide +kernel
  exact every frame.fin frame.reserved frame.opcode

/-- The marker leaves room for the mask bit. -/
theorem marker_lt (frame : RawFrame) : frame.form.marker frame.payload.length < 128 := by
  have fits := frame.fits
  cases form : frame.form with
  | short =>
    rw [form] at fits
    have small : frame.payload.length < 126 := fits
    have same : LengthForm.short.marker frame.payload.length = frame.payload.length := rfl
    omega
  | medium => exact (by decide : 126 < 128)
  | long => exact (by decide : 127 < 128)

theorem secondOctet_mask (frame : RawFrame) :
    frame.secondOctet &&& 0x80 = 0 ↔ frame.mask = none := by
  have every : ∀ (masked : Bool) (marker : Fin 128),
      UInt8.ofNat (128 * masked.toNat + marker) &&& 0x80 = 0 ↔ masked = false := by decide +kernel
  rw [secondOctet, every frame.mask.isSome ⟨_, frame.marker_lt⟩]
  exact Option.isSome_eq_false_iff.trans Option.isNone_iff_eq_none

theorem secondOctet_marker (frame : RawFrame) :
    frame.secondOctet &&& 0x7f = UInt8.ofNat (frame.form.marker frame.payload.length) := by
  have every : ∀ (masked : Bool) (marker : Fin 128),
      UInt8.ofNat (128 * masked.toNat + marker) &&& 0x7f = UInt8.ofNat marker := by decide +kernel
  exact every frame.mask.isSome ⟨_, frame.marker_lt⟩

/-- Every form announces the length of the payload. -/
theorem announcedLength?_field (frame : RawFrame) (rest : Octets) :
    Frame.announcedLength? frame.secondOctet (frame.form.field frame.payload.length ++ rest) =
      some (frame.payload.length, rest) := by
  have fits := frame.fits
  have wide (width : Nat) (small : frame.payload.length < 256 ^ width) :
      (Octets.splitExactly? width (Octets.bigEndian width frame.payload.length ++ rest)).map
        (fun parts => (Octets.ofBigEndian parts.1, parts.2)) = some (frame.payload.length, rest) := by
    rw [Octets.splitExactly?_eq_some_iff.mpr ⟨rfl, Octets.length_bigEndian _ _⟩, Option.map_some,
      Octets.ofBigEndian_bigEndian, Nat.mod_eq_of_lt small]
  have low := frame.secondOctet_marker
  unfold Frame.announcedLength?
  cases form : frame.form with
  | short =>
    rw [form] at fits low
    have direct : ∀ length : Fin 126, UInt8.ofNat length ≠ 126 ∧ UInt8.ofNat length ≠ 127 ∧
        (UInt8.ofNat length).toNat = length := by decide
    obtain ⟨two, eight, same⟩ := direct ⟨frame.payload.length, fits⟩
    change frame.secondOctet &&& 0x7f = UInt8.ofNat frame.payload.length at low
    simp only [low, two, eight, same, if_false, LengthForm.field, List.nil_append]
  | medium =>
    rw [form] at fits low
    change frame.secondOctet &&& 0x7f = 126 at low
    simp only [low, if_true]
    exact wide 2 fits
  | long =>
    rw [form] at fits low
    change frame.secondOctet &&& 0x7f = 127 at low
    simp only [low, if_true]
    exact wide 8 fits

theorem masked?_octets (mask : Mask) (payload rest : Octets) :
    Frame.masked? payload.length (mask.octets ++ mask.apply payload ++ rest) =
      some (payload, rest) := by
  have split : Octets.splitExactly? payload.length (mask.apply payload ++ rest) =
      some (mask.apply payload, rest) :=
    Octets.splitExactly?_eq_some_iff.mpr ⟨rfl, Mask.length_apply mask payload⟩
  have unmasked : mask.apply (mask.apply payload) = payload := Mask.apply_apply mask payload
  simp only [Mask.octets, List.cons_append, List.nil_append, Frame.masked?, split, Option.map_some,
    unmasked]

/-- What the parser says of a complete frame does not depend on what follows it. -/
theorem parse_octets (frame : RawFrame) (rest : Octets) :
    Frame.parse (frame.octets ++ rest) =
      if frame.reserved.val ≠ 0 then .error .reservedBits
      else
        match frame.kind? with
        | none => .error (.unknownOpcode (UInt8.ofNat frame.opcode))
        | some opcode =>
          if frame.mask = none then .error .unmasked
          else if opcode.isControl ∧ (frame.fin = false ∨ frame.payload.length > 125) then
            .error .malformedControl
          else if frame.payload.length > Frame.sizeLimit then
            .error (.frameTooBig frame.payload.length)
          else .ok (some (⟨opcode, frame.fin, frame.payload⟩, rest)) := by
  simp only [octets, List.cons_append, List.append_assoc, Frame.parse, ne_eq,
    frame.firstOctet_reserved, frame.firstOctet_opcode, frame.secondOctet_mask,
    frame.announcedLength?_field, kind?]
  split
  · rfl
  · cases known : Opcode.ofValue? (UInt8.ofNat frame.opcode) with
    | none => rfl
    | some opcode =>
      cases masked : frame.mask with
      | none => rfl
      | some mask =>
        have finBit := frame.firstOctet_fin
        simp only [ne_eq] at finBit
        simp only [Frame.parseBody, finBit, body, masked, masked?_octets, Option.map_some]

end RawFrame

end CashHerald.Wire
