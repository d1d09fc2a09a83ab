import CashHerald.Upgrade.Challenge
import CashHerald.Upgrade.Request

/-!
Answers to upgrade requests: the sub-protocol both sides share, and the response of each dialect,
which is a head of lines and for the older dialect an answer behind it.
-/

namespace CashHerald.Upgrade

/-- The first sub-protocol of the client that the server has too; none is needed if either side
names none. -/
def agree (server client : List String) : Except Wire.Fault (Option String) :=
  if server = [] ∨ client = [] then .ok none
  else
    match client.find? (server.contains ·) with
    | some shared => .ok (some shared)
    | none => .error (.noCommonSubProtocol client)

namespace Response

/-- The octets of a head: its lines, each ended, and a blank line. -/
def head (lines : List String) : Octets :=
  Utf8.encode (String.join (lines.map (· ++ "\r\n")) ++ "\r\n")

/-- The line that names the sub-protocol, if one is chosen. -/
def subProtocolLines (subProtocol : Option String) : List String :=
  match subProtocol with
  | none => []
  | some name => [s!"Sec-WebSocket-Protocol: {name}"]

/-- A header of a request that cannot be answered without it. -/
def required (request : Request) (name : String) : Except Wire.Refusal String :=
  match request.header? name with
  | some value => .ok value
  | none => .error (.missingHeader name)

def hybi13 (request : Request) (subProtocol : Option String) : Except Wire.Refusal Octets := do
  let key ← required request "Sec-WebSocket-Key"
  pure (head (
    ["HTTP/1.1 101 Switching Protocols",
      "Upgrade: websocket",
      "Connection: Upgrade"] ++
    subProtocolLines subProtocol ++
    [s!"Sec-WebSocket-Accept: {acceptKey key}"]))

def draft76 (request : Request) (subProtocol : Option String) : Except Wire.Refusal Octets := do
  let firstKey ← required request "Sec-WebSocket-Key1"
  let secondKey ← required request "Sec-WebSocket-Key2"
  if request.body.length ≠ 8 then throw .challengeLength
  let answer ← Challenge.answer firstKey secondKey request.body
  let origin := (request.header? "Origin").getD ""
  let host := (request.header? "Host").getD ""
  pure (head (
    ["HTTP/1.1 101 WebSocket Protocol Handshake",
      "Upgrade: WebSocket",
      "Connection: Upgrade",
      s!"Sec-WebSocket-Origin: {origin}",
      s!"Sec-WebSocket-Location: {request.scheme}://{host}{request.path}"] ++
    subProtocolLines subProtocol) ++ answer)

/-- The response of a dialect to a request. -/
def ofDialect (dialect : Wire.Dialect) (request : Request) (subProtocol : Option String) :
    Except Wire.Refusal Octets :=
  match dialect with
  | .hybi13 => hybi13 request subProtocol
  | .draft76 => draft76 request subProtocol
  | .flashPolicy => .ok (Utf8.encode PolicyProbe.response)

end Response

end CashHerald.Upgrade
