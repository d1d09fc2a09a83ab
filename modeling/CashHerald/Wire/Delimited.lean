import CashHerald.Wire.Reassembly

/-!
The older framing: a text between an octet 0 and an octet 255. A decoder holds an incomplete
message and remembers how far it has searched for the end mark.
-/

namespace CashHerald.Wire.Delimited

def startMark : UInt8 := 0x00

def endMark : UInt8 := 0xff

/-- A text between its marks. -/
def encode (text : String) : Octets :=
  startMark :: (Utf8.encode text ++ [endMark])

structure Decoder where
  buffer : Octets
  searched : Nat
  deriving DecidableEq, Repr

/-- A decoder that has read nothing. -/
def Decoder.fresh : Decoder :=
  ⟨[], 0⟩

/-- The place of the end mark in a buffer whose first `searched` octets hold none. -/
def findEnd? (searched : Nat) (buffer : Octets) : Option Nat :=
  ((buffer.drop searched).findIdx? (· == endMark)).map (searched + ·)

/-- Reads the messages of a buffer behind the texts found earlier, the latest first. -/
def drain (earlier : List Message) (searched : Nat) (buffer : Octets) :
    Except Violation (List Message) × Decoder :=
  match buffer with
  | [] => (.ok earlier.reverse, ⟨[], searched⟩)
  | first :: body =>
    if first ≠ startMark then (.error .missingStartMark, ⟨first :: body, searched⟩)
    else
      match findEnd? searched (first :: body) with
      | none =>
        let size := body.length
        let decoder := ⟨first :: body, size + 1⟩
        if size > Frame.sizeLimit then (.error (.unterminatedTooBig size), decoder)
        else (.ok earlier.reverse, decoder)
      | some place =>
        if place - 1 > Frame.sizeLimit then
          (.error (.messageTooBig (place - 1)), ⟨first :: body, searched⟩)
        else
          match Utf8.decode? (body.take (place - 1)) with
          | none => (.error .messageNotUtf8, ⟨body.drop place, 0⟩)
          | some text => drain (.text text :: earlier) 0 (body.drop place)
termination_by buffer.length
decreasing_by
  rw [List.length_drop, List.length_cons]
  omega

/-- Adds octets to the buffer and reads the messages that are complete. The messages found before a
violation are dropped with it. -/
def Decoder.feed (decoder : Decoder) (data : Octets) :
    Except Violation (List Message) × Decoder :=
  drain [] decoder.searched (decoder.buffer ++ data)

end CashHerald.Wire.Delimited
