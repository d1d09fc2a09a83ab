import CashHerald.Text.Utf8
import CashHerald.Wire.Frame

/-!
Messages put together from frames. A decoder holds the octets of an incomplete frame and the
fragments of an incomplete message; control frames may come between fragments.
-/

namespace CashHerald.Wire

/-- A message is what a peer has said, whatever the frames that carried it. -/
inductive Message where
  | text (content : String)
  | binary (content : Octets)
  | ping (content : Octets)
  | pong (content : Octets)
  | close (code : Option UInt16)
  deriving DecidableEq, Repr

namespace Reassembly

/-- The content of a message is fixed by its first fragment. -/
inductive Content where
  | text
  | binary
  deriving DecidableEq, Repr

/-- A started message with the payloads of its fragments so far. -/
structure Started where
  content : Content
  gathered : Octets
  deriving DecidableEq, Repr

structure Decoder where
  buffer : Octets
  started : Option Started
  deriving DecidableEq, Repr

/-- A decoder that has read nothing. -/
def Decoder.fresh : Decoder :=
  ⟨[], none⟩

/-- The message whose payload is complete. -/
def complete (content : Content) (payload : Octets) : Except Violation Message :=
  match content with
  | .binary => .ok (.binary payload)
  | .text =>
    match Utf8.decode? payload with
    | some text => .ok (.text text)
    | none => .error .textNotUtf8

/-- The message of a close frame: no code, or a code and a reason that is text. -/
def closeMessage : Octets → Except Violation Message
  | [] => .ok (.close none)
  | [_] => .error .truncatedCloseCode
  | high :: low :: reason =>
    let code := UInt16.ofNat (Octets.ofBigEndian [high, low])
    if CloseCode.isSendable code = false then .error (.invalidCloseCode code)
    else if Utf8.decode? reason = none then .error .closeReasonNotUtf8
    else .ok (.close (some code))

/-- The first frame of a message either completes it or starts to gather it. -/
def start (content : Content) (started : Option Started) (frame : Frame) :
    Option Started × Except Violation (Option Message) :=
  match started with
  | some earlier => (some earlier, .error .unexpectedStart)
  | none =>
    if frame.fin then (none, (complete content frame.payload).map some)
    else (some ⟨content, frame.payload⟩, .ok none)

/-- A continuation adds its payload to the message in progress. -/
def resume (started : Option Started) (frame : Frame) :
    Option Started × Except Violation (Option Message) :=
  match started with
  | none => (none, .error .unexpectedContinuation)
  | some earlier =>
    let gathered := earlier.gathered ++ frame.payload
    if gathered.length > Frame.sizeLimit then (none, .error (.messageTooBig gathered.length))
    else if frame.fin then (none, (complete earlier.content gathered).map some)
    else (some ⟨earlier.content, gathered⟩, .ok none)

/-- What a frame makes of the message in progress, and the message that it completes. -/
def accept (started : Option Started) (frame : Frame) :
    Option Started × Except Violation (Option Message) :=
  match frame.opcode with
  | .continuation => resume started frame
  | .text => start .text started frame
  | .binary => start .binary started frame
  | .close => (started, (closeMessage frame.payload).map some)
  | .ping => (started, .ok (some (.ping frame.payload)))
  | .pong => (started, .ok (some (.pong frame.payload)))

/-- Reads the frames of a buffer behind the messages found earlier, the latest first. -/
def drain (earlier : List Message) (started : Option Started) (buffer : Octets) :
    Except Violation (List Message) × Decoder :=
  match _parsed : Frame.parse buffer with
  | .error violation => (.error violation, ⟨buffer, started⟩)
  | .ok none => (.ok earlier.reverse, ⟨buffer, started⟩)
  | .ok (some (frame, rest)) =>
    match accept started frame with
    | (next, .error violation) => (.error violation, ⟨rest, next⟩)
    | (next, .ok none) => drain earlier next rest
    | (next, .ok (some message)) => drain (message :: earlier) next rest
termination_by buffer.length
decreasing_by all_goals exact Frame.length_of_parse _parsed

/-- Adds octets to the buffer and reads the frames that are complete. The messages found before a
violation are dropped with it. -/
def Decoder.feed (decoder : Decoder) (data : Octets) :
    Except Violation (List Message) × Decoder :=
  drain [] decoder.started (decoder.buffer ++ data)

end Reassembly

end CashHerald.Wire
