import CashHerald.Session.Reaction

/-!
What a session has to do, as a list of tasks. A task asks something of the connection, may tell the
handler of an event, and leaves the tasks behind it or others in their place. Main statement: every
task that is carried out leaves less to do.
-/

namespace CashHerald.Session

/-- A session reads octets of a request, then octets of a dialect, and ends. -/
inductive Phase where
  | awaiting (received : Octets)
  | speaking (decoder : Wire.Decoder)
  | ended
  deriving DecidableEq, Repr

/-- What a session asks of its connection, besides what its handler asks. -/
inductive Call where
  | servePolicy
  | complete (details : Details) (response : Octets)
  | close (code : UInt16)
  | finish
  deriving DecidableEq, Repr

/-- The connection after a call, and how the call went. -/
def Connection.perform (connection : Connection) : Call → Connection × Except Wire.Fault Unit
  | .servePolicy => (connection.servePolicy, .ok ())
  | .complete details response => connection.complete details response
  | .close code => (connection.close code, .ok ())
  | .finish => (connection.finish, .ok ())

/-- A task is one thing that a session has to do. -/
inductive Task where
  | servePolicy
  | complete (details : Details) (response : Octets)
  | deliver (message : Wire.Message)
  | report (fault : Wire.Fault)
  | close (code : UInt16)
  | wait (phase : Phase)
  | finish
  deriving DecidableEq, Repr

/-- What a task comes to: a call, an event of which the handler is told behind it, and the tasks
that are left. -/
structure Move where
  call : Option Call
  event : Option Event
  left : List Task
  deriving DecidableEq, Repr

/-- The connection after the call of a move. -/
def Connection.follow (connection : Connection) (move : Move) : Connection :=
  match move.call with
  | none => connection
  | some call => (connection.perform call).1

namespace Task

/-- What a fault leaves to do: the handler is told, and the connection is closed with the code of
the fault. -/
def failing (fault : Wire.Fault) : List Task :=
  [.report fault, .close fault.code, .finish]

/-- The handler is told of a message; a close message is answered and ends the delivery. -/
def delivery (rest : List Task) : Wire.Message → Move
  | .text content => ⟨none, some (.text content), rest⟩
  | .binary content => ⟨none, some (.binary content), rest⟩
  | .ping content => ⟨none, some (.ping content), rest⟩
  | .pong content => ⟨none, some (.pong content), rest⟩
  | .close code => ⟨some (.close (code.getD Wire.CloseCode.normal)), none, [.finish]⟩

/-- What a task comes to on a connection, with the rest of the tasks behind it. -/
def move (connection : Connection) (rest : List Task) : Task → Move
  | .servePolicy => ⟨some .servePolicy, none, rest⟩
  | .complete details response =>
    match (connection.complete details response).2 with
    | .ok () => ⟨some (.complete details response), some .opened, rest⟩
    | .error fault => ⟨some (.complete details response), none, failing fault⟩
  | .deliver message =>
    if connection.isAvailable then delivery rest message else ⟨none, none, [.finish]⟩
  | .report fault =>
    ⟨none, if connection.details.isSome then some (.failed fault) else none, rest⟩
  | .close code => ⟨some (.close code), none, rest⟩
  | .wait _ => ⟨none, none, [.finish]⟩
  | .finish =>
    ⟨some .finish, if connection.state ≠ .closed ∧ connection.hasOpened then some .closed else none,
      []⟩

/-- The phase in which a session waits for its socket again, if its connection is available. -/
def rest? (connection : Connection) : Task → Option Phase
  | .wait phase => if connection.isAvailable then some phase else none
  | _ => none

/-- More than what the task may leave in its place. -/
def weight : Task → Nat
  | .complete _ _ => 4
  | .deliver _ => 2
  | .wait _ => 2
  | _ => 1

/-- How much there is to do. -/
def load : List Task → Nat
  | [] => 0
  | task :: rest => task.weight + load rest

@[simp] theorem load_nil : load [] = 0 := rfl

@[simp] theorem load_cons (task : Task) (rest : List Task) :
    load (task :: rest) = task.weight + load rest := rfl

/-- Every task that is carried out leaves less to do. -/
theorem load_move (connection : Connection) (rest : List Task) (task : Task) :
    load (task.move connection rest).left < load (task :: rest) := by
  rw [load_cons]
  cases task with
  | complete details response =>
    simp only [move]
    split
    · simp only [weight]
      omega
    · simp only [failing, load_cons, load_nil, weight]
      omega
  | deliver message =>
    simp only [move]
    split
    · cases message <;> simp only [delivery, load_cons, load_nil, weight] <;> omega
    · simp only [load_cons, load_nil, weight]
      omega
  | _ =>
    simp only [move, load_cons, load_nil, weight]
    omega

end Task

end CashHerald.Session
