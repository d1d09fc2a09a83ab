import CashHerald.Proofs.Wire.ClientFrame
import Mathlib

/-!
Frames as a server writes them, against a reference reader of unmasked frames that is given bit by
bit. Main statement: frames written one behind the other are read back, with no reserved bit, no mask
bit and every length in its shortest form; so different frames have different octets, and octets that
are cut short in their last frame are not read as complete.
-/

namespace CashHerald.Wire

namespace LengthForm

/-- The number of octets that a form takes behind the second octet. -/
def width : LengthForm → Nat
  | .short => 0
  | .medium => 2
  | .long => 8

/-- Reads a length whose low bits stand in the second octet: the form that it has, the number, and the
octets behind it. -/
def read? (low : Nat) (octets : Octets) : Option ((LengthForm × Nat) × Octets) :=
  if low < 126 then some ((.short, low), octets)
  else
    let form := if low = 126 then .medium else .long
    (Octets.splitExactly? form.width octets).map fun (digits, later) =>
      ((form, Octets.ofBigEndian digits), later)

/-- No form that has room for a length takes fewer octets than the shortest one. -/
theorem width_shortest_le {length : Nat} {form : LengthForm} (fits : length < form.room) :
    (shortest length).width ≤ form.width := by
  unfold shortest
  split
  · exact Nat.zero_le _
  · rename_i short
    cases form with
    | short => exact absurd fits short
    | medium =>
      rw [if_pos (Nat.le_of_lt_succ fits)]
    | long =>
      split
      · exact (by decide : 2 ≤ 8)
      · exact le_rfl

theorem marker_shortest_lt (length : Nat) : (shortest length).marker length < 128 := by
  unfold shortest
  split
  · rename_i short
    exact Nat.lt_trans short (by decide)
  · split
    · exact (by decide : 126 < 128)
    · exact (by decide : 127 < 128)

/-- Without a mask bit the length is written in its shortest form. -/
theorem lengthField_eq (length : Nat) :
    Frame.lengthField 0 length =
      UInt8.ofNat ((shortest length).marker length) :: (shortest length).field length := by
  unfold Frame.lengthField shortest
  split
  · exact congrArg (· :: []) UInt8.zero_or
  · split
    · exact congrArg (· :: _) UInt8.zero_or
    · exact congrArg (· :: _) UInt8.zero_or

/-- A length is read from its shortest form. -/
theorem read?_shortest {length : Nat} (fits : length < 2 ^ 64) (rest : Octets) :
    read? ((shortest length).marker length) ((shortest length).field length ++ rest) =
      some ((shortest length, length), rest) := by
  have digits (width : Nat) (small : length < 256 ^ width) :
      Octets.splitExactly? width (Octets.bigEndian width length ++ rest) =
          some (Octets.bigEndian width length, rest) ∧
        Octets.ofBigEndian (Octets.bigEndian width length) = length :=
    ⟨Octets.splitExactly?_eq_some_iff.mpr ⟨rfl, Octets.length_bigEndian _ _⟩,
      (Octets.ofBigEndian_bigEndian _ _).trans (Nat.mod_eq_of_lt small)⟩
  unfold shortest
  split
  · rename_i short
    exact if_pos short
  · split
    · rename_i medium
      obtain ⟨split, number⟩ := digits 2 (Nat.lt_succ_of_le medium)
      simp only [read?, marker, field, width, split, number, Nat.lt_irrefl, if_true, if_false,
        Option.map_some]
    · obtain ⟨split, number⟩ := digits 8 fits
      have long : ¬127 < 126 ∧ ¬127 = 126 := by decide
      simp only [read?, marker, field, width, split, number, long, if_false, Option.map_some]

/-- A length is read from a front of the octets, whatever follows it. -/
theorem read?_front {low : Nat} {octets later : Octets} {found : LengthForm × Nat}
    (read : read? low octets = some (found, later)) :
    ∃ front, octets = front ++ later ∧ ∀ more, read? low (front ++ more) = some (found, more) := by
  unfold read? at read ⊢
  split at read
  · rename_i short
    cases read
    exact ⟨[], rfl, fun more => if_pos short⟩
  · rename_i written
    obtain ⟨⟨digits, rest⟩, split, equal⟩ := Option.map_eq_some_iff.mp read
    cases equal
    obtain ⟨rfl, exact⟩ := Octets.splitExactly?_eq_some_iff.mp split
    refine ⟨digits, rfl, fun more => ?_⟩
    rw [if_neg written]
    exact Option.map_eq_some_iff.mpr
      ⟨(digits, more), Octets.splitExactly?_eq_some_iff.mpr ⟨rfl, exact⟩, rfl⟩

end LengthForm

/-- The kinds of frames by their numbers; the other numbers are not assigned. -/
def Opcode.ofNumber? : Nat → Option Opcode
  | 0 => some .continuation
  | 1 => some .text
  | 2 => some .binary
  | 8 => some .close
  | 9 => some .ping
  | 10 => some .pong
  | _ => none

/-- What keeps a reader from reading a frame of a server. -/
inductive Flaw where
  | cutShort
  | reserved
  | masked
  | unknownOpcode
  | longForm
  | tooLong
  deriving DecidableEq, Repr

/-- What stands in front of a frame's payload. -/
structure FrameHeader where
  fin : Bool
  reserved : Nat
  opcode : Nat
  masked : Bool
  form : LengthForm
  length : Nat
  deriving DecidableEq, Repr

namespace FrameHeader

/-- What two octets say bit by bit: the first one has the final bit, three reserved bits and four bits
for the opcode; the second one has the mask bit in front of the seven bits for the length. -/
def ofOctets (first second : UInt8) (form : LengthForm) (length : Nat) : FrameHeader where
  fin := first.toNat / 128 = 1
  reserved := first.toNat / 16 % 8
  opcode := first.toNat % 16
  masked := second.toNat / 128 = 1
  form := form
  length := length

/-- Reads a header and the octets behind it. -/
def read? : Octets → Option (FrameHeader × Octets)
  | first :: second :: rest =>
    (LengthForm.read? (second.toNat % 128) rest).map fun ((form, length), later) =>
      (ofOctets first second form length, later)
  | _ => none

/-- The opcode of a header without a flaw: no reserved bit and no mask bit is set, the opcode is
assigned, and the length has at most 63 bits and is in its shortest form. -/
def check (header : FrameHeader) : Except Flaw Opcode :=
  if header.reserved ≠ 0 then .error .reserved
  else if header.masked then .error .masked
  else if header.form ≠ .shortest header.length then .error .longForm
  else if 2 ^ 63 ≤ header.length then .error .tooLong
  else
    match Opcode.ofNumber? header.opcode with
    | none => .error .unknownOpcode
    | some opcode => .ok opcode

/-- The header of a server's frame. -/
def ofFrame (frame : Frame) : FrameHeader where
  fin := frame.fin
  reserved := 0
  opcode := frame.opcode.value.toNat
  masked := false
  form := .shortest frame.payload.length
  length := frame.payload.length

/-- The header of a server's frame is read from its octets, and the payload stands behind it. -/
theorem read?_encode (frame : Frame) (fits : frame.payload.length < 2 ^ 64) (rest : Octets) :
    read? (frame.encode ++ rest) = some (ofFrame frame, frame.payload ++ rest) := by
  have first : ∀ opcode fin, decide ((Frame.firstOctet opcode fin).toNat / 128 = 1) = fin ∧
      (Frame.firstOctet opcode fin).toNat / 16 % 8 = 0 ∧
      (Frame.firstOctet opcode fin).toNat % 16 = opcode.value.toNat := by
    intro opcode fin
    cases opcode <;> cases fin <;> decide
  obtain ⟨fin, reserved, opcode⟩ := first frame.opcode frame.fin
  have low := LengthForm.marker_shortest_lt frame.payload.length
  have second : (UInt8.ofNat
      ((LengthForm.shortest frame.payload.length).marker frame.payload.length)).toNat =
        (LengthForm.shortest frame.payload.length).marker frame.payload.length :=
    UInt8.toNat_ofNat_of_lt' (Nat.lt_trans low (by decide))
  rw [Frame.encode, LengthForm.lengthField_eq]
  simp only [List.cons_append, List.append_assoc, read?, ofOctets, second, Nat.mod_eq_of_lt low,
    Nat.div_eq_of_lt low, LengthForm.read?_shortest fits, fin, reserved, opcode, Option.map_some]
  rfl

/-- The header of a server's frame has no flaw. -/
theorem check_ofFrame {frame : Frame} (fits : frame.payload.length < 2 ^ 63) :
    (ofFrame frame).check = .ok frame.opcode := by
  have known : Opcode.ofNumber? frame.opcode.value.toNat = some frame.opcode := by
    cases frame.opcode <;> rfl
  simp only [check, ofFrame, known, ne_eq, not_true_eq_false, Bool.false_eq_true, if_false,
    if_neg (Nat.not_le_of_lt fits)]

/-- A header is read from two octets and the rest of the length, whatever follows them. -/
theorem read?_front {octets later : Octets} {header : FrameHeader}
    (read : read? octets = some (header, later)) :
    ∃ first second field, octets = first :: second :: (field ++ later) ∧
      ∀ more, read? (first :: second :: (field ++ more)) = some (header, more) := by
  unfold read? at read
  split at read
  · rename_i first second rest
    obtain ⟨⟨found, behind⟩, length, equal⟩ := Option.map_eq_some_iff.mp read
    cases equal
    obtain ⟨field, rfl, again⟩ := LengthForm.read?_front length
    exact ⟨first, second, field, rfl, fun more => Option.map_eq_some_iff.mpr ⟨_, again more, rfl⟩⟩
  · cases read

end FrameHeader

namespace Frame

/-- The reference reader of one unmasked frame, and the octets behind it. -/
def readUnmasked (octets : Octets) : Except Flaw (Frame × Octets) :=
  match FrameHeader.read? octets with
  | none => .error .cutShort
  | some (header, rest) =>
    match header.check with
    | .error flaw => .error flaw
    | .ok opcode =>
      match Octets.splitExactly? header.length rest with
      | none => .error .cutShort
      | some (payload, later) => .ok (⟨opcode, header.fin, payload⟩, later)

/-- A frame of a server is read back, whatever follows it. -/
theorem readUnmasked_encode {frame : Frame} (fits : frame.payload.length < 2 ^ 63) (rest : Octets) :
    readUnmasked (frame.encode ++ rest) = .ok (frame, rest) := by
  have payload : Octets.splitExactly? frame.payload.length (frame.payload ++ rest) =
      some (frame.payload, rest) := Octets.splitExactly?_eq_some_iff.mpr ⟨rfl, rfl⟩
  simp only [readUnmasked, FrameHeader.read?_encode frame (Nat.lt_trans fits (by decide)),
    FrameHeader.check_ofFrame fits]
  simp only [FrameHeader.ofFrame, payload]

/-- Octets that are not cut short are read in the same way whatever follows them. -/
theorem readUnmasked_append {octets : Octets} (whole : readUnmasked octets ≠ .error .cutShort)
    (more : Octets) :
    readUnmasked (octets ++ more) =
      (readUnmasked octets).map fun (frame, later) => (frame, later ++ more) := by
  rcases read : FrameHeader.read? octets with _ | ⟨header, rest⟩
  · exact absurd (by simp only [readUnmasked, read]) whole
  · obtain ⟨first, second, field, rfl, again⟩ := FrameHeader.read?_front read
    have longer : FrameHeader.read? (first :: second :: (field ++ rest) ++ more) =
        some (header, rest ++ more) := by
      rw [List.cons_append, List.cons_append, List.append_assoc]
      exact again (rest ++ more)
    unfold readUnmasked at whole ⊢
    simp only [read, longer] at whole ⊢
    rcases checked : header.check with flaw | opcode
    · rfl
    · rcases split : Octets.splitExactly? header.length rest with _ | ⟨payload, later⟩
      · simp only [checked, split, ne_eq, not_true_eq_false] at whole
      · rw [Octets.splitExactly?_append split more]
        rfl

/-- A front of a server's frame is cut short unless it is the whole frame. -/
theorem readUnmasked_front {frame : Frame} {front back : Octets}
    (fits : frame.payload.length < 2 ^ 63) (cut : front ++ back = frame.encode) (short : back ≠ []) :
    readUnmasked front = .error .cutShort := by
  -- A front that is not cut short would be read like the whole frame, which leaves nothing behind it.
  by_contra whole
  have again := readUnmasked_append whole back
  have read := readUnmasked_encode fits []
  rw [List.append_nil, ← cut, again] at read
  rcases found : readUnmasked front with flaw | ⟨other, later⟩
  · rw [found] at read
    cases read
  · rw [found] at read
    have behind : later ++ back = [] := congrArg Prod.snd (Except.ok.inj read)
    exact short (List.append_eq_nil_iff.mp behind).2

/-- What follows a frame that is read is shorter than the octets. -/
theorem length_of_readUnmasked {octets later : Octets} {frame : Frame}
    (found : readUnmasked octets = .ok (frame, later)) : later.length < octets.length := by
  unfold readUnmasked at found
  split at found
  · cases found
  · rename_i header rest read
    split at found
    · cases found
    · split at found
      · cases found
      · rename_i payload behind split
        cases found
        obtain ⟨rfl, -⟩ := Octets.splitExactly?_eq_some_iff.mp split
        obtain ⟨first, second, field, rfl, -⟩ := FrameHeader.read?_front read
        simp only [List.length_cons, List.length_append]
        omega

/-- The reference reader of frames one behind the other, up to the end of the octets. -/
def readAll (octets : Octets) : Except Flaw (List Frame) :=
  if octets = [] then .ok []
  else
    match _found : readUnmasked octets with
    | .error flaw => .error flaw
    | .ok (frame, later) => (readAll later).map (frame :: ·)
termination_by octets.length
decreasing_by exact length_of_readUnmasked _found

/-- A first frame of a server is read before the others. -/
theorem readAll_encode_append {frame : Frame} (fits : frame.payload.length < 2 ^ 63)
    (rest : Octets) : readAll (frame.encode ++ rest) = (readAll rest).map (frame :: ·) := by
  have present : frame.encode ++ rest ≠ [] := by
    intro empty
    cases empty
  rw [readAll, if_neg present]
  split
  · rename_i flaw refused
    rw [readUnmasked_encode fits] at refused
    cases refused
  · rename_i first later found
    rw [readUnmasked_encode fits] at found
    cases found
    rfl

/-- Frames of a server are read before what follows them. -/
theorem readAll_flatMap_append {frames : List Frame}
    (fit : ∀ frame ∈ frames, frame.payload.length < 2 ^ 63) (rest : Octets) :
    readAll (frames.flatMap encode ++ rest) = (readAll rest).map (frames ++ ·) := by
  induction frames with
  | nil =>
    rw [List.flatMap_nil, List.nil_append]
    rcases readAll rest with flaw | found <;> rfl
  | cons frame frames inductionHypothesis =>
    obtain ⟨fits, others⟩ := List.forall_mem_cons.mp fit
    rw [List.flatMap_cons, List.append_assoc, readAll_encode_append fits,
      inductionHypothesis others]
    rcases readAll rest with flaw | found <;> rfl

theorem readAll_flatMap {frames : List Frame}
    (fit : ∀ frame ∈ frames, frame.payload.length < 2 ^ 63) :
    readAll (frames.flatMap encode) = .ok frames := by
  have read := readAll_flatMap_append fit []
  have nothing : readAll [] = .ok [] := by rw [readAll, if_pos rfl]
  rw [List.append_nil, nothing] at read
  exact read.trans (congrArg Except.ok (List.append_nil frames))

/-- A front of a server's frame that is neither empty nor whole is cut short. -/
theorem readAll_front {frame : Frame} {front back : Octets}
    (fits : frame.payload.length < 2 ^ 63) (cut : front ++ back = frame.encode) (short : back ≠ []) :
    readAll front = if front = [] then .ok [] else .error .cutShort := by
  rw [readAll]
  split
  · rfl
  · split
    · rename_i flaw refused
      rw [readUnmasked_front fits cut short] at refused
      exact congrArg Except.error (Except.error.inj refused).symm
    · rename_i first later found
      rw [readUnmasked_front fits cut short] at found
      cases found

/-- Frames of a server whose payloads have fewer than `2 ^ 63` octets, written one behind the other,
are read back by the reference reader; the header of each has no reserved bit, no mask bit and the
length of the payload in a form that no form with room for it is shorter than; other such frames have
other octets; and if a back of the last frame is missing, the octets are refused as cut short, or read
as the frames in front of it if nothing of it is left. -/
theorem served_readable (frames : List Frame)
    (fit : ∀ frame ∈ frames, frame.payload.length < 2 ^ 63) :
    readAll (frames.flatMap encode) = .ok frames ∧
    (∀ frame ∈ frames, ∀ rest, ∃ header,
      FrameHeader.read? (frame.encode ++ rest) = some (header, frame.payload ++ rest) ∧
        header.reserved = 0 ∧ header.masked = false ∧ header.length = frame.payload.length ∧
        ∀ form : LengthForm, header.length < form.room → header.form.width ≤ form.width) ∧
    (∀ others : List Frame, (∀ frame ∈ others, frame.payload.length < 2 ^ 63) →
      frames.flatMap encode = others.flatMap encode → frames = others) ∧
    ∀ earlier last front back, frames = earlier ++ [last] → front ++ back = last.encode →
      back ≠ [] → readAll (earlier.flatMap encode ++ front) =
        if front = [] then .ok earlier else .error .cutShort := by
  refine ⟨readAll_flatMap fit, ?_, ?_, ?_⟩
  · intro frame inside rest
    have small : frame.payload.length < 2 ^ 64 := Nat.lt_trans (fit frame inside) (by decide)
    exact ⟨.ofFrame frame, FrameHeader.read?_encode frame small rest, rfl, rfl, rfl,
      fun form room => LengthForm.width_shortest_le room⟩
  · intro others othersFit same
    have read := readAll_flatMap fit
    rw [same, readAll_flatMap othersFit] at read
    exact (Except.ok.inj read).symm
  · intro earlier last front back split cut short
    subst split
    obtain ⟨earlierFit, lastFits⟩ := List.forall_mem_append.mp fit
    rw [readAll_flatMap_append earlierFit,
      readAll_front (lastFits last (List.mem_singleton_self last)) cut short]
    split
    · exact congrArg Except.ok (List.append_nil earlier)
    · rfl

/-- A fragment, a ping in front of the rest of the message, and the rest with a length behind its
second octet; without its last octet the rest is cut short. -/
theorem served_readable_interruptedMessage :
    let rest := List.replicate 126 0
    let frames : List Frame := [⟨.text, false, [72, 105]⟩, ⟨.ping, true, []⟩,
      ⟨.continuation, true, rest⟩]
    let front : Octets := [0x01, 2, 72, 105, 0x89, 0, 0x80, 126, 0, 126]
    frames.flatMap encode = front ++ rest ∧ readAll (front ++ rest) = .ok frames ∧
      readAll (front ++ rest.take 125) = .error .cutShort := by
  intro rest frames front
  have fit : ∀ frame ∈ frames, frame.payload.length < 2 ^ 63 := by decide +kernel
  have written : frames.flatMap encode = front ++ rest := by decide +kernel
  obtain ⟨read, -, -, cut⟩ := served_readable frames fit
  refine ⟨written, written ▸ read, ?_⟩
  exact cut [_, _] _ ([0x80, 126, 0, 126] ++ rest.take 125) [0] rfl (by decide +kernel) (by decide)

end Frame

end CashHerald.Wire
