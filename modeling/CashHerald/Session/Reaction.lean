import CashHerald.Session.Connection

/-!
What a server's owner does when something happens on a connection: sends and closes in any order,
each of which may depend on how the sends before it went. Main statement: a reaction leaves the
details of the connection as they are.
-/

namespace CashHerald.Session

/-- What happens on a connection. -/
inductive Event where
  | opened
  | text (content : String)
  | binary (content : Octets)
  | ping (content : Octets)
  | pong (content : Octets)
  | failed (fault : Wire.Fault)
  | closed
  deriving DecidableEq, Repr

/-- A reaction acts on its connection and ends with a value. -/
inductive Reaction (Value : Type) where
  | done (value : Value)
  | inspect (next : State → Option Details → Reaction Value)
  | send (opcode : Wire.Opcode) (payload : Octets)
      (next : Except Wire.Fault Unit → Reaction Value)
  | close (code : UInt16) (next : Reaction Value)

namespace Reaction

/-- The connection after a reaction, and the reaction's value. -/
def run {Value : Type} (connection : Connection) : Reaction Value → Connection × Value
  | .done value => (connection, value)
  | .inspect next => run connection (next connection.state connection.details)
  | .send opcode payload next =>
    run (connection.send opcode payload).1 (next (connection.send opcode payload).2)
  | .close code next => run (connection.close code) next

/-- The reaction with another value at its end. -/
def map {First Second : Type} (change : First → Second) : Reaction First → Reaction Second
  | .done value => .done (change value)
  | .inspect next => .inspect fun state details => map change (next state details)
  | .send opcode payload next => .send opcode payload fun outcome => map change (next outcome)
  | .close code next => .close code (map change next)

/-- Sends a text message, whatever comes of it. -/
def sendText {Value : Type} (text : String) (value : Value) : Reaction Value :=
  .send .text (Utf8.encode text) fun _ => .done value

/-- The usual answer to a ping is a pong with the same content. -/
def pong {Value : Type} (content : Octets) (value : Value) : Reaction Value :=
  .send .pong content fun _ => .done value

end Reaction

/-- A handler reacts to the events of each client's connection and remembers. -/
abbrev Handler (Memory : Type) := Memory → Nat → Event → Reaction Memory

/-- A reaction leaves the details of the connection as they are. -/
theorem Reaction.details_run {Value : Type} (connection : Connection)
    (reaction : Reaction Value) : (run connection reaction).1.details = connection.details := by
  induction reaction generalizing connection with
  | done value => rfl
  | inspect next inductionHypothesis => simp [run, inductionHypothesis]
  | send opcode payload next inductionHypothesis => simp [run, inductionHypothesis]
  | close code next inductionHypothesis => simp [run, inductionHypothesis]

/-- Changing the value at the end of a reaction does not change what it does. -/
theorem Reaction.run_map {First Second : Type} (change : First → Second)
    (connection : Connection) (reaction : Reaction First) :
    run connection (reaction.map change) =
      ((run connection reaction).1, change (run connection reaction).2) := by
  induction reaction generalizing connection with
  | done value => rfl
  | inspect next inductionHypothesis => simp [run, map, inductionHypothesis]
  | send opcode payload next inductionHypothesis => simp [run, map, inductionHypothesis]
  | close code next inductionHypothesis => simp [run, map, inductionHypothesis]

end CashHerald.Session
