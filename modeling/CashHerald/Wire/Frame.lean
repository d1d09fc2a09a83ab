import CashHerald.Octets.Basic
import CashHerald.Wire.Fault

/-!
Frames on the wire: an octet with the final bit and the opcode, a length in its shortest form, for
clients a mask, and the payload. Main statements: masking twice gives the payload back, and a parsed
frame is a front of the buffer that is read in the same way whatever follows it.
-/

namespace CashHerald.Wire

inductive Opcode where
  | continuation
  | text
  | binary
  | close
  | ping
  | pong
  deriving DecidableEq, Repr

namespace Opcode

/-- The number of an opcode on the wire. -/
def value : Opcode → UInt8
  | .continuation => 0
  | .text => 1
  | .binary => 2
  | .close => 8
  | .ping => 9
  | .pong => 10

def ofValue? (value : UInt8) : Option Opcode :=
  if value = 0 then some .continuation
  else if value = 1 then some .text
  else if value = 2 then some .binary
  else if value = 8 then some .close
  else if value = 9 then some .ping
  else if value = 10 then some .pong
  else none

/-- Control frames may come between the fragments of a message. -/
def isControl : Opcode → Bool
  | .close => true
  | .ping => true
  | .pong => true
  | _ => false

theorem ofValue?_value (opcode : Opcode) : ofValue? opcode.value = some opcode := by
  cases opcode <;> rfl

theorem value_of_ofValue? {value : UInt8} {opcode : Opcode}
    (found : ofValue? value = some opcode) : opcode.value = value := by
  simp only [ofValue?] at found
  repeat' split at found
  all_goals first
    | cases found; simp_all [Opcode.value]
    | cases found

end Opcode

/-- A frame carries a message, or a part of one. -/
structure Frame where
  opcode : Opcode
  fin : Bool
  payload : Octets
  deriving DecidableEq, Repr

/-- A mask has four octets. -/
structure Mask where
  first : UInt8
  second : UInt8
  third : UInt8
  fourth : UInt8
  deriving DecidableEq, Repr

namespace Mask

/-- The mask's octet for a place in the payload. -/
def octet (mask : Mask) (index : Nat) : UInt8 :=
  match index % 4 with
  | 0 => mask.first
  | 1 => mask.second
  | 2 => mask.third
  | _ => mask.fourth

def octets (mask : Mask) : Octets :=
  [mask.first, mask.second, mask.third, mask.fourth]

/-- Adds the mask to each octet of a payload. -/
def apply (mask : Mask) (payload : Octets) : Octets :=
  payload.mapIdx fun index byte => byte ^^^ mask.octet index

@[simp] theorem length_apply (mask : Mask) (payload : Octets) :
    (mask.apply payload).length = payload.length := by
  simp [apply]

/-- Masking twice gives the payload back. -/
@[simp] theorem apply_apply (mask : Mask) (payload : Octets) :
    mask.apply (mask.apply payload) = payload := by
  apply List.ext_getElem
  · simp
  · intro index inside within
    simp [apply, UInt8.xor_assoc]

end Mask

namespace Frame

/-- The largest payload of a frame, and of a message put together from fragments. -/
def sizeLimit : Nat := 5 * 1024 * 1024

/-- The length of a payload in its shortest form, under the mask bit. -/
def lengthField (maskBit : UInt8) (length : Nat) : Octets :=
  if length < 126 then [maskBit ||| UInt8.ofNat length]
  else if length ≤ 65535 then (maskBit ||| 126) :: Octets.bigEndian 2 length
  else (maskBit ||| 127) :: Octets.bigEndian 8 length

/-- The first octet: the final bit and the opcode. -/
def firstOctet (opcode : Opcode) (fin : Bool) : UInt8 :=
  (if fin then 0x80 else 0) ||| opcode.value

/-- A frame as the server writes it. -/
def encode (frame : Frame) : Octets :=
  firstOctet frame.opcode frame.fin :: (lengthField 0 frame.payload.length ++ frame.payload)

/-- A whole message in one frame as a client writes it. -/
def encodeMasked (opcode : Opcode) (payload : Octets) (mask : Mask) : Octets :=
  firstOctet opcode true ::
    (lengthField 0x80 payload.length ++ (mask.octets ++ mask.apply payload))

/-- The close frame for a code; it is empty for a code that may not be sent. -/
def closing (code : UInt16) : Frame :=
  ⟨.close, true, if CloseCode.isSendable code then Octets.bigEndian 2 code.toNat else []⟩

/-- The length announced behind the second octet, and the octets behind it. -/
def announcedLength? (second : UInt8) (rest : Octets) : Option (Nat × Octets) :=
  let short := second &&& 0x7f
  if short = 126 then
    (Octets.splitExactly? 2 rest).map fun (field, later) => (Octets.ofBigEndian field, later)
  else if short = 127 then
    (Octets.splitExactly? 8 rest).map fun (field, later) => (Octets.ofBigEndian field, later)
  else some (short.toNat, rest)

/-- The payload of an announced length behind its mask, and the octets behind it. -/
def masked? (length : Nat) : Octets → Option (Octets × Octets)
  | first :: second :: third :: fourth :: rest =>
    (Octets.splitExactly? length rest).map fun (payload, later) =>
      (Mask.apply ⟨first, second, third, fourth⟩ payload, later)
  | _ => none

/-- Reads the rest of a frame whose opcode and length are known. -/
def parseBody (opcode : Opcode) (fin : Bool) (length : Nat) (rest : Octets) :
    Except Violation (Option (Frame × Octets)) :=
  if opcode.isControl ∧ (fin = false ∨ length > 125) then .error .malformedControl
  else if length > sizeLimit then .error (.frameTooBig length)
  else .ok ((masked? length rest).map fun (payload, later) => (⟨opcode, fin, payload⟩, later))

/-- Reads one client frame from the front of a buffer; nothing is read from an incomplete one. -/
def parse : Octets → Except Violation (Option (Frame × Octets))
  | first :: second :: rest =>
    if first &&& 0x70 ≠ 0 then .error .reservedBits
    else
      match Opcode.ofValue? (first &&& 0x0f) with
      | none => .error (.unknownOpcode (first &&& 0x0f))
      | some opcode =>
        if second &&& 0x80 = 0 then .error .unmasked
        else
          match announcedLength? second rest with
          | none => .ok none
          | some (length, body) => parseBody opcode (first &&& 0x80 ≠ 0) length body
  | _ => .ok none

/-- An announced length is read from a front of the octets, whatever follows it. -/
theorem announcedLength?_front {second : UInt8} {rest body : Octets} {length : Nat}
    (found : announcedLength? second rest = some (length, body)) :
    ∃ front, rest = front ++ body ∧
      ∀ more, announcedLength? second (front ++ more) = some (length, more) := by
  have field (width : Nat) (split : (Octets.splitExactly? width rest).map
      (fun parts => (Octets.ofBigEndian parts.1, parts.2)) = some (length, body)) :
      ∃ front, rest = front ++ body ∧ ∀ more, (Octets.splitExactly? width (front ++ more)).map
        (fun parts => (Octets.ofBigEndian parts.1, parts.2)) = some (length, more) := by
    obtain ⟨⟨front, later⟩, inside, equal⟩ := Option.map_eq_some_iff.mp split
    obtain ⟨rfl, rfl⟩ := Prod.mk.injEq .. ▸ equal
    obtain ⟨rfl, exact⟩ := Octets.splitExactly?_eq_some_iff.mp inside
    refine ⟨front, rfl, fun more => ?_⟩
    rw [Octets.splitExactly?_eq_some_iff.mpr ⟨rfl, exact⟩]
    rfl
  simp only [announcedLength?] at found ⊢
  by_cases two : second &&& 0x7f = 126
  · simp only [if_pos two] at found ⊢
    exact field 2 found
  · simp only [if_neg two] at found ⊢
    by_cases eight : second &&& 0x7f = 127
    · simp only [if_pos eight] at found ⊢
      exact field 8 found
    · simp only [if_neg eight] at found ⊢
      cases found
      exact ⟨[], rfl, fun more => rfl⟩

/-- A payload is read behind its mask from a front of the octets, whatever follows it. -/
theorem masked?_front {length : Nat} {rest payload later : Octets}
    (found : masked? length rest = some (payload, later)) :
    ∃ front, rest = front ++ later ∧ ∀ more, masked? length (front ++ more) = some (payload, more) := by
  unfold masked? at found
  split at found
  · rename_i first second third fourth body
    obtain ⟨⟨hidden, behind⟩, inside, equal⟩ := Option.map_eq_some_iff.mp found
    cases equal
    obtain ⟨rfl, exact⟩ := Octets.splitExactly?_eq_some_iff.mp inside
    refine ⟨first :: second :: third :: fourth :: hidden, rfl, fun more => ?_⟩
    simp only [List.cons_append, masked?, Octets.splitExactly?_eq_some_iff.mpr ⟨rfl, exact⟩]
    rfl
  · cases found

/-- A frame is read where its opcode and length are allowed and its payload is complete. -/
theorem parseBody_eq_frame_iff {opcode : Opcode} {fin : Bool} {length : Nat} {rest later : Octets}
    {frame : Frame} :
    parseBody opcode fin length rest = .ok (some (frame, later)) ↔
      ¬(opcode.isControl ∧ (fin = false ∨ length > 125)) ∧ length ≤ sizeLimit ∧
        ∃ payload, masked? length rest = some (payload, later) ∧
          frame = ⟨opcode, fin, payload⟩ := by
  unfold parseBody
  split
  · simp_all
  · split
    · simp
      omega
    · rename_i allowed small
      simp only [Except.ok.injEq, Option.map_eq_some_iff, Prod.mk.injEq, Prod.exists, allowed,
        not_false_eq_true, Nat.le_of_not_gt small, true_and]
      constructor
      · rintro ⟨payload, behind, inside, rfl, rfl⟩
        exact ⟨payload, inside, rfl⟩
      · rintro ⟨payload, inside, rfl⟩
        exact ⟨payload, later, inside, rfl, rfl⟩

/-- A frame is read where its header is allowed and its length and payload are complete. -/
theorem parse_eq_frame_iff {buffer later : Octets} {frame : Frame} :
    parse buffer = .ok (some (frame, later)) ↔
      ∃ first second rest opcode length body, buffer = first :: second :: rest ∧
        first &&& 0x70 = 0 ∧ Opcode.ofValue? (first &&& 0x0f) = some opcode ∧
        second &&& 0x80 ≠ 0 ∧ announcedLength? second rest = some (length, body) ∧
        parseBody opcode (first &&& 0x80 ≠ 0) length body = .ok (some (frame, later)) := by
  constructor
  · intro found
    unfold parse at found
    split at found
    · rename_i first second rest
      split at found
      · cases found
      · rename_i clear
        split at found
        · cases found
        · rename_i opcode known
          split at found
          · cases found
          · rename_i masked
            split at found
            · cases found
            · rename_i length body announced
              exact ⟨first, second, rest, opcode, length, body, rfl, Decidable.not_not.mp clear, known,
                masked, announced, found⟩
    · cases found
  · rintro ⟨first, second, rest, opcode, length, body, rfl, clear, known, masked, announced, found⟩
    simp only [parse, clear, known, masked, announced]
    exact found

/-- A parsed frame is a front of the buffer and is read in the same way whatever follows it. -/
theorem parse_front {buffer later : Octets} {frame : Frame}
    (found : parse buffer = .ok (some (frame, later))) :
    ∃ front, buffer = front ++ later ∧
      ∀ more, parse (front ++ more) = .ok (some (frame, more)) := by
  obtain ⟨first, second, rest, opcode, length, body, rfl, clear, known, masked, announced, inside⟩ :=
    parse_eq_frame_iff.mp found
  obtain ⟨allowed, small, payload, unmasked, rfl⟩ := parseBody_eq_frame_iff.mp inside
  obtain ⟨field, rfl, announcedAgain⟩ := announcedLength?_front announced
  obtain ⟨hidden, rfl, unmaskedAgain⟩ := masked?_front unmasked
  refine ⟨first :: second :: (field ++ hidden), by simp, fun more => ?_⟩
  rw [parse_eq_frame_iff]
  refine ⟨first, second, field ++ (hidden ++ more), opcode, length, hidden ++ more, by simp, clear,
    known, masked, announcedAgain _, ?_⟩
  exact parseBody_eq_frame_iff.mpr ⟨allowed, small, payload, unmaskedAgain more, rfl⟩

/-- What follows a parsed frame is shorter than the buffer. -/
theorem length_of_parse {buffer later : Octets} {frame : Frame}
    (found : parse buffer = .ok (some (frame, later))) : later.length < buffer.length := by
  obtain ⟨front, rfl, again⟩ := parse_front found
  cases front with
  | nil => exact absurd (again []) (by simp [parse])
  | cons first rest =>
    simp only [List.length_append, List.length_cons]
    omega
end Frame

end CashHerald.Wire
