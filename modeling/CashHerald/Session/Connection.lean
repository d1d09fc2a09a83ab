import CashHerald.Upgrade.Response

/-!
A connection as everyone who sends to it sees it: a state that only moves forward, the details fixed
when it opened, and a queue that a writer drains. Main statements: closing twice is closing once,
and a refused send changes nothing.
-/

namespace CashHerald.Session

inductive State where
  | connecting
  | opened
  | closing
  | closed
  deriving DecidableEq, Repr

/-- The details of a connection that its upgrade request fixed. -/
structure Details where
  dialect : Wire.Dialect
  subProtocol : Option String
  path : String
  origin : Option String
  host : Option String
  deriving DecidableEq, Repr

namespace Details

/-- The details that a request and the chosen sub-protocol fix. -/
def ofRequest (dialect : Wire.Dialect) (request : Upgrade.Request)
    (subProtocol : Option String) : Details :=
  ⟨dialect, subProtocol, request.path, request.header? "Origin", request.header? "Host"⟩

/-- The details of a dialect without a request. -/
def plain (dialect : Wire.Dialect) : Details :=
  ⟨dialect, none, "/", none, none⟩

/-- The details of a connection that asked for the policy. -/
def policy : Details :=
  ⟨.flashPolicy, none, "", none, none⟩

end Details

/-- An item for the writer: octets, or the end behind an optional close frame. -/
inductive Outbound where
  | data (octets : Octets)
  | close (frame : Option Octets)
  deriving DecidableEq, Repr

/-- The writer takes items while it is attached; what is queued for a detached one is lost. -/
structure Connection where
  state : State
  details : Option Details
  attached : Bool
  queue : List Outbound
  deriving DecidableEq, Repr

namespace Connection

/-- A connection whose peer has said nothing. -/
def fresh : Connection :=
  ⟨.connecting, none, true, []⟩

/-- An open connection in a dialect. -/
def opened (dialect : Wire.Dialect) : Connection :=
  ⟨.opened, some (.plain dialect), true, []⟩

/-- The connection may still get messages. -/
def isAvailable (connection : Connection) : Bool :=
  connection.state = .connecting || connection.state = .opened

/-- Puts an item into the queue, if the writer is attached. -/
def enqueue (connection : Connection) (item : Outbound) : Connection :=
  if connection.attached then
    ⟨connection.state, connection.details, true, connection.queue ++ [item]⟩
  else connection

/-- The connection in another state. -/
def withState (connection : Connection) (state : State) : Connection :=
  ⟨state, connection.details, connection.attached, connection.queue⟩

/-- The frame of a payload in the connection's dialect, if it has one. -/
def frame? (connection : Connection) (opcode : Wire.Opcode) (payload : Octets) : Option Octets :=
  match connection.details with
  | none => none
  | some details => details.dialect.encode? opcode payload

/-- Whether a send of a payload is refused, and why. -/
def refusal? (connection : Connection) (opcode : Wire.Opcode) (payload : Octets) :
    Option Wire.Fault :=
  match connection.state with
  | .connecting => some .notOpen
  | .closing => some .closed
  | .closed => some .closed
  | .opened =>
    if connection.details = none then some .notOpen
    else if (connection.frame? opcode payload).isSome ∧ connection.attached = false then
      some .closed
    else none

/-- Sends a payload. One without a frame in the dialect is accepted and dropped. -/
def send (connection : Connection) (opcode : Wire.Opcode) (payload : Octets) :
    Connection × Except Wire.Fault Unit :=
  match connection.refusal? opcode payload with
  | some fault => (connection, .error fault)
  | none =>
    match connection.frame? opcode payload with
    | none => (connection, .ok ())
    | some frame => (connection.enqueue (.data frame), .ok ())

/-- Sends a text message. -/
def sendText (connection : Connection) (text : String) : Connection × Except Wire.Fault Unit :=
  connection.send .text (Utf8.encode text)

/-- The close frame for a code in the connection's dialect, if it has one. -/
def closeFrame? (connection : Connection) (code : UInt16) : Option Octets :=
  match connection.details with
  | none => none
  | some details => details.dialect.closeFrame? code

/-- Starts to close with a code, unless closing has begun. -/
def close (connection : Connection) (code : UInt16) : Connection :=
  if connection.isAvailable then
    (connection.withState .closing).enqueue (.close (connection.closeFrame? code))
  else connection

/-- Fixes the details of a connection that has none. -/
def describe (connection : Connection) (details : Details) : Connection :=
  ⟨connection.state, some (connection.details.getD details), connection.attached, connection.queue⟩

/-- Opens a connection with its details, behind the response to its request. This fails for a
connection that has details, has no writer, or has started to close. -/
def complete (connection : Connection) (details : Details) (response : Octets) :
    Connection × Except Wire.Fault Unit :=
  if connection.details.isSome then (connection, .error (.handshake .alreadyCompleted))
  else
    let answered := (connection.describe details).enqueue (.data response)
    if connection.attached ∧ connection.state = .connecting then
      (answered.withState .opened, .ok ())
    else (answered, .error .closed)

/-- Answers a policy probe and starts to close. -/
def servePolicy (connection : Connection) : Connection :=
  ((connection.describe .policy).enqueue
    (.data (Utf8.encode Upgrade.PolicyProbe.response))).close Wire.CloseCode.normal

/-- The connection got past its handshake. -/
def hasOpened (connection : Connection) : Bool :=
  connection.details.any (·.dialect ≠ .flashPolicy)

/-- Closes a connection for good; its writer is told to end. -/
def finish (connection : Connection) : Connection :=
  (connection.enqueue (.close none)).withState .closed

/-- Detaches the writer and drops what it has not taken. -/
def detach (connection : Connection) : Connection :=
  ⟨connection.state, connection.details, false, []⟩

/-- Takes everything out of the queue. -/
def take (connection : Connection) : List Outbound × Connection :=
  (connection.queue, ⟨connection.state, connection.details, connection.attached, []⟩)

/-- The octets that a writer writes for a queue, and whether it has come to an end. -/
def written : List Outbound → Octets × Bool
  | [] => ([], false)
  | .data octets :: rest =>
    let (later, ended) := written rest
    (octets ++ later, ended)
  | .close frame :: _ => (frame.getD [], true)

/-- The writer writes the queue; it detaches itself behind the first end. -/
def flush (connection : Connection) : Octets × Connection :=
  let (octets, ended) := written connection.queue
  (octets, ⟨connection.state, connection.details, connection.attached && !ended, []⟩)

@[simp] theorem state_enqueue (connection : Connection) (item : Outbound) :
    (connection.enqueue item).state = connection.state := by
  simp only [enqueue]
  split <;> rfl

@[simp] theorem state_send (connection : Connection) (opcode : Wire.Opcode) (payload : Octets) :
    (connection.send opcode payload).1.state = connection.state := by
  simp only [send]
  split
  · rfl
  · split <;> simp

theorem state_close (connection : Connection) (code : UInt16) :
    (connection.close code).state =
      if connection.isAvailable then .closing else connection.state := by
  simp only [close]
  split <;> simp [withState]

@[simp] theorem state_finish (connection : Connection) : connection.finish.state = .closed := rfl

@[simp] theorem details_enqueue (connection : Connection) (item : Outbound) :
    (connection.enqueue item).details = connection.details := by
  simp only [enqueue]
  split <;> rfl

@[simp] theorem details_send (connection : Connection) (opcode : Wire.Opcode) (payload : Octets) :
    (connection.send opcode payload).1.details = connection.details := by
  simp only [send]
  split
  · rfl
  · split <;> simp

@[simp] theorem details_close (connection : Connection) (code : UInt16) :
    (connection.close code).details = connection.details := by
  simp only [close]
  split <;> simp [withState]

@[simp] theorem details_finish (connection : Connection) :
    connection.finish.details = connection.details := by
  simp [finish, withState]

theorem hasOpened_close (connection : Connection) (code : UInt16) :
    (connection.close code).hasOpened = connection.hasOpened := by
  simp [hasOpened]

theorem hasOpened_finish (connection : Connection) :
    connection.finish.hasOpened = connection.hasOpened := by
  simp [hasOpened]

theorem isSome_details_of_hasOpened {connection : Connection}
    (opened : connection.hasOpened = true) : connection.details.isSome = true := by
  unfold hasOpened at opened
  cases known : connection.details <;> simp_all

theorem ne_fresh_of_queue {connection : Connection} {item : Outbound} {rest : List Outbound}
    (queued : connection.queue = item :: rest) : connection ≠ .fresh := by
  rintro rfl
  cases queued

/-- A fresh connection opens. -/
theorem complete_fresh (details : Details) (response : Octets) :
    fresh.complete details response = (⟨.opened, some details, true, [.data response]⟩, .ok ()) :=
  rfl

/-- A connection that has started to close is not available. -/
theorem isAvailable_close (connection : Connection) (code : UInt16) :
    (connection.close code).isAvailable = false := by
  unfold close
  split
  · simp [isAvailable, withState]
  · rename_i unavailable
    simpa using unavailable

/-- Closing twice is closing once. -/
theorem close_close (connection : Connection) (first second : UInt16) :
    (connection.close first).close second = connection.close first := by
  rw [close, isAvailable_close]
  rfl

/-- A refused send changes nothing. -/
theorem send_of_refusal?_eq_some {connection : Connection} {opcode : Wire.Opcode}
    {payload : Octets} {fault : Wire.Fault}
    (refused : connection.refusal? opcode payload = some fault) :
    connection.send opcode payload = (connection, .error fault) := by
  simp [send, refused]

end Connection

end CashHerald.Session
