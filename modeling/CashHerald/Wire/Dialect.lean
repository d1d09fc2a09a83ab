import CashHerald.Wire.Delimited

/-!
The dialects a connection can speak once it is set up, with what each of them can frame.
-/

namespace CashHerald.Wire

/-- A dialect of the wire: the standard framing, the older one between marks, or the answer to a
policy probe, after which nothing is said. -/
inductive Dialect where
  | hybi13
  | draft76
  | flashPolicy
  deriving DecidableEq, Repr

/-- A decoder for the messages of a peer. -/
inductive Decoder where
  | hybi13 (decoder : Reassembly.Decoder)
  | draft76 (decoder : Delimited.Decoder)
  deriving DecidableEq, Repr

/-- Adds octets and returns the messages that are complete. -/
def Decoder.feed (decoder : Decoder) (data : Octets) :
    Except Violation (List Message) × Decoder :=
  match decoder with
  | .hybi13 inner =>
    let (outcome, next) := inner.feed data
    (outcome, .hybi13 next)
  | .draft76 inner =>
    let (outcome, next) := inner.feed data
    (outcome, .draft76 next)

namespace Dialect

/-- The name of a dialect. -/
def name : Dialect → String
  | .hybi13 => "hybi13"
  | .draft76 => "draft76"
  | .flashPolicy => "flash-policy"

/-- The frame of a payload, if the dialect has one. -/
def encode? (dialect : Dialect) (opcode : Opcode) (payload : Octets) : Option Octets :=
  match dialect, opcode with
  | .hybi13, .continuation => none
  | .hybi13, _ => some (Frame.encode ⟨opcode, true, payload⟩)
  | .draft76, .text => (Utf8.decode? payload).map Delimited.encode
  | _, _ => none

/-- The close frame for a code, if the dialect has one. -/
def closeFrame? (dialect : Dialect) (code : UInt16) : Option Octets :=
  match dialect with
  | .hybi13 => some (Frame.closing code).encode
  | _ => none

/-- A fresh decoder, if the peer can say anything in the dialect. -/
def decoder? : Dialect → Option Decoder
  | .hybi13 => some (.hybi13 .fresh)
  | .draft76 => some (.draft76 .fresh)
  | .flashPolicy => none

end Dialect

end CashHerald.Wire
