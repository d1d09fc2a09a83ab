/-!
What can go wrong on a connection, the close code that tells the peer, and the wording.
-/

namespace CashHerald.Wire

namespace CloseCode

def normal : UInt16 := 1000

def protocolError : UInt16 := 1002

def abnormal : UInt16 := 1006

def invalidPayload : UInt16 := 1007

def messageTooBig : UInt16 := 1009

def internalError : UInt16 := 1011

/-- The codes that a peer may put into a close frame. -/
def isSendable (code : UInt16) : Bool :=
  (1000 ≤ code && code ≤ 1003) || (1007 ≤ code && code ≤ 1011) || (3000 ≤ code && code ≤ 4999)

end CloseCode

/-- A violation of the framing rules by the peer. -/
inductive Violation where
  | reservedBits
  | unknownOpcode (value : UInt8)
  | unmasked
  | malformedControl
  | frameTooBig (size : Nat)
  | messageTooBig (size : Nat)
  | unexpectedContinuation
  | unexpectedStart
  | textNotUtf8
  | truncatedCloseCode
  | invalidCloseCode (code : UInt16)
  | closeReasonNotUtf8
  | missingStartMark
  | unterminatedTooBig (size : Nat)
  | messageNotUtf8
  deriving DecidableEq, Repr

namespace Violation

/-- The close code that answers a violation. -/
def code : Violation → UInt16
  | .frameTooBig _ => CloseCode.messageTooBig
  | .messageTooBig _ => CloseCode.messageTooBig
  | .unterminatedTooBig _ => CloseCode.messageTooBig
  | .textNotUtf8 => CloseCode.invalidPayload
  | .closeReasonNotUtf8 => CloseCode.invalidPayload
  | .missingStartMark => CloseCode.invalidPayload
  | .messageNotUtf8 => CloseCode.invalidPayload
  | _ => CloseCode.protocolError

/-- The wording of a violation. -/
def reason : Violation → String
  | .reservedBits => "reserved bits set"
  | .unknownOpcode value =>
    "unknown opcode 0x" ++ String.ofList (Nat.toDigits 16 value.toNat)
  | .unmasked => "client frames must be masked"
  | .malformedControl => "fragmented or oversized control frame"
  | .frameTooBig size => s!"frame of {size} bytes"
  | .messageTooBig size => s!"message of {size} bytes"
  | .unexpectedContinuation => "continuation without a started message"
  | .unexpectedStart => "new message before previous fragments completed"
  | .textNotUtf8 => "text frame is not UTF-8"
  | .truncatedCloseCode => "truncated close code"
  | .invalidCloseCode code => s!"invalid close code {code}"
  | .closeReasonNotUtf8 => "close reason is not UTF-8"
  | .missingStartMark => "message does not start with 0x00"
  | .unterminatedTooBig size => s!"unterminated message of {size} bytes"
  | .messageNotUtf8 => "message is not UTF-8"

end Violation

/-- A reason to refuse an upgrade request. -/
inductive Refusal where
  | missingHeader (name : String)
  | challengeLength
  | keyWithoutSpaces (key : String)
  | keyOverflow (key : String)
  | keyOutOfRange (key : String)
  | alreadyCompleted
  deriving DecidableEq, Repr

/-- The wording of a refusal. -/
def Refusal.reason : Refusal → String
  | .missingHeader name => s!"missing {name}"
  | .challengeLength => "challenge must be 8 bytes"
  | .keyWithoutSpaces key => s!"key '{key}' contains no spaces"
  | .keyOverflow key => s!"key '{key}' overflows"
  | .keyOutOfRange key => s!"key '{key}' out of range"
  | .alreadyCompleted => "handshake already completed"

/-- A fault ends a connection or fails a send. -/
inductive Fault where
  | protocol (violation : Violation)
  | handshake (refusal : Refusal)
  | noCommonSubProtocol (offered : List String)
  | notOpen
  | closed
  | transport
  deriving DecidableEq, Repr

namespace Fault

/-- The close code with which a fault tears a connection down. -/
def code : Fault → UInt16
  | .protocol violation => violation.code
  | .handshake _ => CloseCode.protocolError
  | .noCommonSubProtocol _ => CloseCode.protocolError
  | .notOpen => CloseCode.internalError
  | .closed => CloseCode.internalError
  | .transport => CloseCode.abnormal

/-- The text of a fault. -/
def message : Fault → String
  | .protocol violation => s!"protocol error ({violation.code}): {violation.reason}"
  | .handshake refusal => s!"handshake failed: {refusal.reason}"
  | .noCommonSubProtocol offered =>
    "sub-protocol negotiation failed: none of [" ++ ", ".intercalate offered ++ "] supported"
  | .notOpen => "connection is not open"
  | .closed => "connection closed"
  | .transport => "connection lost"

end Fault

end CashHerald.Wire
