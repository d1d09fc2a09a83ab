import CashHerald.Session.Life

/-!
A server with all its sessions. After an arrival every writer writes its queue, and a session whose
writer has ended ends with it. A server that has stopped gets no new clients; those that it has stay.
-/

namespace CashHerald.Session

/-- A server numbers its clients in the order they connect. -/
structure Server (Memory : Type) where
  settings : Settings
  sessions : List Session
  memory : Memory
  listening : Bool

namespace Server

variable {Memory : Type}

/-- A server without clients. -/
def start (settings : Settings) (memory : Memory) : Server Memory :=
  ⟨settings, [], memory, true⟩

/-- A new client connects, unless the server has stopped. -/
def connect (server : Server Memory) : Server Memory × Bool :=
  if server.listening then
    (⟨server.settings, server.sessions ++ [.fresh], server.memory, true⟩, true)
  else (server, false)

/-- The server stops listening; connections go on. -/
def stop (server : Server Memory) : Server Memory :=
  ⟨server.settings, server.sessions, server.memory, false⟩

/-- Something arrives on the socket of a client. -/
def arrive (handler : Handler Memory) (server : Server Memory) (client : Nat)
    (arrival : Arrival) : Server Memory :=
  match server.sessions[client]? with
  | none => server
  | some session =>
    let (later, memory) := session.step handler server.settings client server.memory arrival
    ⟨server.settings, server.sessions.set client later, memory, server.listening⟩

/-- The writer of a session writes its queue, and the session hears of its end. -/
def settleSession (handler : Handler Memory) (settings : Settings) (client : Nat)
    (session : Session) (memory : Memory) : Octets × Session × Memory :=
  let (octets, flushed) := session.flush
  if flushed.connection.attached then (octets, flushed, memory)
  else
    let (ended, later) := flushed.step handler settings client memory .writerEnded
    (octets, ended, later)

/-- Settles the sessions from a client on. -/
def settleFrom (handler : Handler Memory) (settings : Settings) (client : Nat)
    (memory : Memory) : List Session → List Octets × List Session × Memory
  | [] => ([], [], memory)
  | session :: rest =>
    let (octets, settled, later) := settleSession handler settings client session memory
    let (others, sessions, last) := settleFrom handler settings (client + 1) later rest
    (octets :: others, settled :: sessions, last)

/-- Settles every session and returns what was written to each client. -/
def settle (handler : Handler Memory) (server : Server Memory) : List Octets × Server Memory :=
  let (octets, sessions, memory) :=
    settleFrom handler server.settings 0 server.memory server.sessions
  (octets, ⟨server.settings, sessions, memory, server.listening⟩)

/-- Changes the connections of all sessions from outside, together with the memory. -/
def fromOutside (server : Server Memory)
    (change : Memory → List Connection → Memory × List Connection) : Server Memory :=
  let (memory, connections) := change server.memory (server.sessions.map Session.connection)
  ⟨server.settings,
    List.zipWith (fun session connection => ⟨connection, session.phase⟩) server.sessions
      connections,
    memory, server.listening⟩

end Server

end CashHerald.Session
