import CashHerald.Session.Task

/-!
The life of a served connection: its first octets are read until they are classified, then messages
are delivered until one side ends it. Main statements: an ended session stays as it is, and a
session ends with its stream.
-/

namespace CashHerald.Session

/-- The settings of a server that the life of its connections depends on. -/
structure Settings where
  scheme : String
  subProtocols : List String
  handshakeLimit : Nat
  deriving DecidableEq, Repr

/-- What comes to a session from its socket: octets, the end of the stream, a failing read, or the
notice that the writer has ended. -/
inductive Arrival where
  | data (octets : Octets)
  | endOfStream
  | failure
  | writerEnded
  deriving DecidableEq, Repr

/-- A connection with its place in its life. -/
structure Session where
  connection : Connection
  phase : Phase
  deriving DecidableEq, Repr

def Session.fresh : Session :=
  ⟨.fresh, .awaiting []⟩

/-- A connection together with what the handler remembers. -/
structure Scene (Memory : Type) where
  connection : Connection
  memory : Memory

namespace Scene

variable {Memory : Type}

/-- Lets the handler react to an event of a client. -/
def notify (handler : Handler Memory) (client : Nat) (scene : Scene Memory) (event : Event) :
    Scene Memory :=
  let (connection, memory) := (handler scene.memory client event).run scene.connection
  ⟨connection, memory⟩

/-- Does what a task comes to. -/
def follow (handler : Handler Memory) (client : Nat) (scene : Scene Memory) (move : Move) :
    Scene Memory :=
  let called : Scene Memory := ⟨scene.connection.follow move, scene.memory⟩
  match move.event with
  | none => called
  | some event => called.notify handler client event

/-- Carries out tasks until the session waits for its socket or ends. -/
def carryOut (handler : Handler Memory) (client : Nat) (scene : Scene Memory) :
    List Task → Scene Memory × Phase
  | [] => (scene, .ended)
  | task :: rest =>
    match task.rest? scene.connection with
    | some phase => (scene, phase)
    | none =>
      carryOut handler client (scene.follow handler client (task.move scene.connection rest))
        (task.move scene.connection rest).left
termination_by tasks => Task.load tasks
decreasing_by exact Task.load_move _ _ _

end Scene

namespace Phase

/-- Feeds octets to the decoder of a session and delivers the messages. -/
def receive (decoder : Wire.Decoder) (octets : Octets) : List Task :=
  match decoder.feed octets with
  | (.error violation, _) => Task.failing (.protocol violation)
  | (.ok messages, next) => messages.map .deliver ++ [.wait (.speaking next)]

/-- Opens a connection in a dialect and reads the octets behind the request. -/
def begin (details : Details) (response behind : Octets) : List Task :=
  .complete details response ::
    match details.dialect.decoder? with
    | none => [.finish]
    | some decoder => if behind = [] then [.wait (.speaking decoder)] else receive decoder behind

/-- Answers an upgrade request, or refuses it. -/
def upgrade (settings : Settings) (request : Upgrade.Request) (behind : Octets) : List Task :=
  match request.dialect? with
  | none => [.finish]
  | some dialect =>
    match Upgrade.agree settings.subProtocols request.subProtocols with
    | .error fault => Task.failing fault
    | .ok subProtocol =>
      match Upgrade.Response.ofDialect dialect request subProtocol with
      | .error refusal => Task.failing (.handshake refusal)
      | .ok response => begin (.ofRequest dialect request subProtocol) response behind

/-- Classifies the octets received so far; a request that is not complete may not be too long. -/
def awaitRequest (settings : Settings) (received : Octets) : List Task :=
  match Upgrade.Reading.of settings.scheme received with
  | .incomplete =>
    if received.length > settings.handshakeLimit then [.finish] else [.wait (.awaiting received)]
  | .invalid => [.finish]
  | .policyProbe => [.servePolicy, .finish]
  | .request request => upgrade settings request (received.drop request.raw.length)

/-- What an arrival leaves a session to do. -/
def tasks (settings : Settings) (phase : Phase) (arrival : Arrival) : List Task :=
  match phase, arrival with
  | .ended, _ => []
  | _, .endOfStream => [.finish]
  | _, .writerEnded => [.finish]
  | _, .failure => Task.failing .transport
  | .awaiting received, .data octets => awaitRequest settings (received ++ octets)
  | .speaking decoder, .data octets => receive decoder octets

end Phase

namespace Session

variable {Memory : Type}

/-- A session after an arrival, with what the handler then remembers. -/
def step (handler : Handler Memory) (settings : Settings) (client : Nat) (session : Session)
    (memory : Memory) (arrival : Arrival) : Session × Memory :=
  let (scene, phase) := Scene.carryOut handler client ⟨session.connection, memory⟩
    (session.phase.tasks settings arrival)
  (⟨scene.connection, phase⟩, scene.memory)

/-- An ended session stays as it is. -/
theorem step_of_ended (handler : Handler Memory) (settings : Settings) (client : Nat)
    {session : Session} (memory : Memory) (arrival : Arrival) (ended : session.phase = .ended) :
    session.step handler settings client memory arrival = (session, memory) := by
  obtain ⟨connection, phase⟩ := session
  obtain rfl : phase = .ended := ended
  simp [step, Phase.tasks, Scene.carryOut]

/-- A session whose stream has ended has ended too. -/
theorem phase_step_endOfStream (handler : Handler Memory) (settings : Settings) (client : Nat)
    (session : Session) (memory : Memory) :
    (session.step handler settings client memory .endOfStream).1.phase = .ended := by
  obtain ⟨connection, phase⟩ := session
  cases phase <;> simp [step, Phase.tasks, Scene.carryOut, Task.rest?, Task.move]

/-- The writer of a session writes its queue. -/
def flush (session : Session) : Octets × Session :=
  let (octets, connection) := session.connection.flush
  (octets, ⟨connection, session.phase⟩)

end Session

end CashHerald.Session
