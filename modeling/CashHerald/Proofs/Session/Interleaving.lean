import CashHerald.Session.Life

/-!
Runs of one connection, one thing at a time: its session takes up arrivals and carries out tasks,
its handler reacts, its writer writes, and everyone who was told of the connection sends and closes
in between. Main statements: a session that is left alone after an arrival does what `Session.step`
does, a writer that is left alone writes what `Connection.flush` writes, and every run can be ended.
-/

namespace CashHerald.Session

/-- A session waits for its socket, works on its tasks, or lets its handler react before it works
on. -/
inductive Activity (Memory : Type) where
  | waiting (phase : Phase)
  | working (tasks : List Task)
  | reacting (reaction : Reaction Memory) (tasks : List Task)

/-- What is noted of a run: the tasks taken up, the events told, the calls and the sends, with the
state of the connection in which each was made and how it went. -/
inductive Note where
  | took (task : Task) (state : State)
  | told (event : Event) (state : State)
  | called (call : Call) (state : State) (outcome : Except Wire.Fault Unit)
  | sent (opcode : Wire.Opcode) (payload : Octets) (outcome : Except Wire.Fault Unit)

/-- The event of which a note says that the handler was told. -/
def Note.event? : Note → Option Event
  | .told event _ => some event
  | _ => none

/-- The events of which a journal says that the handler was told, in order. -/
def Note.events (journal : List Note) : List Event :=
  journal.filterMap Note.event?

@[simp] theorem Note.events_append (front back : List Note) :
    Note.events (front ++ back) = Note.events front ++ Note.events back := by
  simp [Note.events]

theorem Note.events_note {note : Note} (silent : note.event? = none) (journal : List Note) :
    Note.events (journal ++ [note]) = Note.events journal := by
  simp [Note.events, silent]

/-- What is noted of the call of a move. -/
def Move.notes (connection : Connection) (move : Move) : List Note :=
  match move.call with
  | none => []
  | some call => [.called call connection.state (connection.perform call).2]

@[simp] theorem Move.events_notes (connection : Connection) (move : Move) :
    Note.events (move.notes connection) = [] := by
  obtain ⟨call, event, left⟩ := move
  cases call <;> rfl

/-- The octets of an item for the writer. -/
def Outbound.octets : Outbound → Octets
  | .data octets => octets
  | .close frame => frame.getD []

section Noting

variable {Memory : Type} (handler : Handler Memory)

/-- The handler that also remembers the events of which it is told. -/
def Handler.noting : Handler (Memory × List Event) := fun remembered client event =>
  (handler remembered.1 client event).map fun memory => (memory, remembered.2 ++ [event])

/-- Following a move adds its event to the events that are remembered and changes nothing else. -/
theorem Scene.follow_noting (client : Nat) (connection : Connection) (memory : Memory)
    (heard : List Event) (move : Move) :
    (⟨connection, (memory, heard)⟩ : Scene (Memory × List Event)).follow handler.noting client
        move =
      ⟨((⟨connection, memory⟩ : Scene Memory).follow handler client move).connection,
        (((⟨connection, memory⟩ : Scene Memory).follow handler client move).memory,
          heard ++ move.event.toList)⟩ := by
  obtain ⟨call, event, left⟩ := move
  cases event with
  | none => simp [follow]
  | some event => simp [follow, notify, Handler.noting, Reaction.run_map]

end Noting

/-- A connection in the middle of a run, with what the writer has written and the notes so far. -/
structure Moment (Memory : Type) where
  connection : Connection
  memory : Memory
  activity : Activity Memory
  written : Octets
  journal : List Note

/-- What happens next in a run. -/
inductive Turn (Memory : Type) where
  | arrive (arrival : Arrival)
  | proceed
  | send (opcode : Wire.Opcode) (payload : Octets)
  | close (code : UInt16)
  | remember (memory : Memory)
  | write
  | failWrite (count : Nat)

namespace Moment

variable {Memory : Type}

/-- The moment in which a socket has been accepted. -/
def start (memory : Memory) : Moment Memory :=
  ⟨.fresh, memory, .waiting (.awaiting []), [], []⟩

/-- The events of which the handler has been told, in order. -/
def callbacks (moment : Moment Memory) : List Event :=
  moment.journal.filterMap Note.event?

/-- The moment with another activity. -/
def turnTo (moment : Moment Memory) (activity : Activity Memory) : Moment Memory :=
  ⟨moment.connection, moment.memory, activity, moment.written, moment.journal⟩

/-- The moment with one more note. -/
def note (moment : Moment Memory) (note : Note) : Moment Memory :=
  ⟨moment.connection, moment.memory, moment.activity, moment.written, moment.journal ++ [note]⟩

/-- Something is asked of the connection. -/
def call (moment : Moment Memory) (call : Call) : Moment Memory :=
  ⟨(moment.connection.perform call).1, moment.memory, moment.activity, moment.written,
    moment.journal ++
      [.called call moment.connection.state (moment.connection.perform call).2]⟩

/-- A payload is sent. -/
def send (moment : Moment Memory) (opcode : Wire.Opcode) (payload : Octets) : Moment Memory :=
  ⟨(moment.connection.send opcode payload).1, moment.memory, moment.activity, moment.written,
    moment.journal ++ [.sent opcode payload (moment.connection.send opcode payload).2]⟩

/-- The handler is told of an event and starts to react. -/
def tell (handler : Handler Memory) (client : Nat) (moment : Moment Memory) (tasks : List Task)
    (event : Event) : Moment Memory :=
  (moment.note (.told event moment.connection.state)).turnTo
    (.reacting (handler moment.memory client event) tasks)

/-- The session makes the call of a move, tells the handler of the event, and has the tasks that are
left. -/
def follow (handler : Handler Memory) (client : Nat) (moment : Moment Memory) (move : Move) :
    Moment Memory :=
  let called : Moment Memory :=
    ⟨moment.connection.follow move, moment.memory, .working move.left, moment.written,
      moment.journal ++ move.notes moment.connection⟩
  match move.event with
  | none => called
  | some event => called.tell handler client move.left event

/-- The session takes up a task. -/
def take (handler : Handler Memory) (client : Nat) (moment : Moment Memory) (task : Task)
    (rest : List Task) : Moment Memory :=
  match task.rest? moment.connection with
  | some phase => moment.turnTo (.waiting phase)
  | none =>
    (moment.note (.took task moment.connection.state)).follow handler client
      (task.move moment.connection rest)

/-- One thing of a reaction. -/
def react (moment : Moment Memory) (tasks : List Task) : Reaction Memory → Moment Memory
  | .done memory => ⟨moment.connection, memory, .working tasks, moment.written, moment.journal⟩
  | .inspect next =>
    moment.turnTo (.reacting (next moment.connection.state moment.connection.details) tasks)
  | .send opcode payload next =>
    (moment.send opcode payload).turnTo
      (.reacting (next (moment.connection.send opcode payload).2) tasks)
  | .close code next => (moment.call (.close code)).turnTo (.reacting next tasks)

/-- The next thing that the session does. -/
def proceed (handler : Handler Memory) (client : Nat) (moment : Moment Memory) : Moment Memory :=
  match moment.activity with
  | .waiting _ => moment
  | .working [] => moment.turnTo (.waiting .ended)
  | .working (task :: rest) => moment.take handler client task rest
  | .reacting reaction tasks => moment.react tasks reaction

/-- A session that waits takes up an arrival. -/
def arrive (settings : Settings) (moment : Moment Memory) (arrival : Arrival) : Moment Memory :=
  match moment.activity with
  | .waiting phase => moment.turnTo (.working (phase.tasks settings arrival))
  | _ => moment

/-- The writer writes an item; it leaves behind an end. -/
def write (moment : Moment Memory) : Moment Memory :=
  match moment.connection.queue with
  | [] => moment
  | .data octets :: rest =>
    ⟨⟨moment.connection.state, moment.connection.details, moment.connection.attached, rest⟩,
      moment.memory, moment.activity, moment.written ++ octets, moment.journal⟩
  | .close frame :: _ =>
    ⟨moment.connection.detach, moment.memory, moment.activity, moment.written ++ frame.getD [],
      moment.journal⟩

/-- The writer fails within an item and leaves. -/
def failWrite (moment : Moment Memory) (count : Nat) : Moment Memory :=
  match moment.connection.queue with
  | [] => moment
  | item :: _ =>
    ⟨moment.connection.detach, moment.memory, moment.activity,
      moment.written ++ item.octets.take count, moment.journal⟩

/-- The moment after a turn. The first to hear of a connection is its handler: nobody sends on it or
closes it from outside before the handler has been told of something. -/
def turn (handler : Handler Memory) (settings : Settings) (client : Nat) (moment : Moment Memory) :
    Turn Memory → Moment Memory
  | .arrive arrival => moment.arrive settings arrival
  | .proceed => moment.proceed handler client
  | .send opcode payload => if moment.callbacks = [] then moment else moment.send opcode payload
  | .close code => if moment.callbacks = [] then moment else moment.call (.close code)
  | .remember memory =>
    ⟨moment.connection, memory, moment.activity, moment.written, moment.journal⟩
  | .write => moment.write
  | .failWrite count => moment.failWrite count

/-- The moment after some turns. -/
def run (handler : Handler Memory) (settings : Settings) (client : Nat) (moment : Moment Memory)
    (turns : List (Turn Memory)) : Moment Memory :=
  turns.foldl (turn handler settings client) moment

variable {handler : Handler Memory} {settings : Settings} {client : Nat}

theorem run_append (moment : Moment Memory) (first second : List (Turn Memory)) :
    moment.run handler settings client (first ++ second) =
      (moment.run handler settings client first).run handler settings client second :=
  List.foldl_append

/-- The session left alone gets from one moment to another. -/
def Proceeds (handler : Handler Memory) (settings : Settings) (client : Nat)
    (earlier later : Moment Memory) : Prop :=
  ∃ count, earlier.run handler settings client (List.replicate count .proceed) = later

theorem Proceeds.refl (moment : Moment Memory) : Proceeds handler settings client moment moment :=
  ⟨0, rfl⟩

theorem Proceeds.head {earlier later : Moment Memory}
    (rest : Proceeds handler settings client (earlier.proceed handler client) later) :
    Proceeds handler settings client earlier later := by
  obtain ⟨count, reached⟩ := rest
  exact ⟨count + 1, reached⟩

theorem Proceeds.trans {first second third : Moment Memory}
    (front : Proceeds handler settings client first second)
    (back : Proceeds handler settings client second third) :
    Proceeds handler settings client first third := by
  obtain ⟨many, rfl⟩ := front
  obtain ⟨more, rfl⟩ := back
  refine ⟨many + more, ?_⟩
  rw [← List.replicate_append_replicate, run_append]

variable (handler settings client)

/-- A reaction that nothing interrupts comes to what it does in one go, and nothing is told. -/
theorem exists_proceeds_reacting (reaction : Reaction Memory) (tasks : List Task)
    (connection : Connection) (memory : Memory) (written : Octets) (journal : List Note) :
    ∃ later, Note.events later = Note.events journal ∧
      Proceeds handler settings client
        ⟨connection, memory, .reacting reaction tasks, written, journal⟩
        ⟨(reaction.run connection).1, (reaction.run connection).2, .working tasks, written,
          later⟩ := by
  induction reaction generalizing connection journal with
  | done value => exact ⟨journal, rfl, .head (.refl _)⟩
  | inspect next inductionHypothesis =>
    obtain ⟨later, silent, reached⟩ := inductionHypothesis _ _ connection journal
    exact ⟨later, silent, .head reached⟩
  | send opcode payload next inductionHypothesis =>
    obtain ⟨later, silent, reached⟩ := inductionHypothesis _ _ _
    exact ⟨later, silent.trans (Note.events_note rfl journal), .head reached⟩
  | close code next inductionHypothesis =>
    obtain ⟨later, silent, reached⟩ := inductionHypothesis _ _
    exact ⟨later, silent.trans (Note.events_note rfl journal), .head reached⟩

/-- The move of a task that nothing interrupts comes to what it does in one go. -/
theorem exists_proceeds_follow (move : Move) (connection : Connection) (memory : Memory)
    (activity : Activity Memory) (written : Octets) (journal : List Note) :
    ∃ later, Note.events later = Note.events journal ++ move.event.toList ∧
      Proceeds handler settings client
        ((⟨connection, memory, activity, written, journal⟩ : Moment Memory).follow handler client
          move)
        ⟨((⟨connection, memory⟩ : Scene Memory).follow handler client move).connection,
          ((⟨connection, memory⟩ : Scene Memory).follow handler client move).memory,
          .working move.left, written, later⟩ := by
  obtain ⟨call, event, left⟩ := move
  cases event with
  | none => exact ⟨_, by simp, .refl _⟩
  | some event =>
    obtain ⟨later, silent, reached⟩ :=
      exists_proceeds_reacting handler settings client _ _ _ _ _ _
    refine ⟨later, silent.trans ?_, reached⟩
    have told : Note.events [.told event (connection.follow ⟨call, some event, left⟩).state] =
        [event] := rfl
    change Note.events (journal ++ _ ++ [_]) = _
    rw [Note.events_append, Note.events_append, Move.events_notes, List.append_nil, told]
    rfl

/-- Tasks that nothing interrupts come to what they do in one go. -/
theorem exists_proceeds_working (tasks : List Task) (scene : Scene Memory) (written : Octets)
    (journal : List Note) :
    let noted := (⟨scene.connection, (scene.memory, Note.events journal)⟩ :
      Scene (Memory × List Event)).carryOut handler.noting client tasks
    ∃ later, Note.events later = noted.1.memory.2 ∧
      Proceeds handler settings client
        ⟨scene.connection, scene.memory, .working tasks, written, journal⟩
        ⟨noted.1.connection, noted.1.memory.1, .waiting noted.2, written, later⟩ := by
  -- The recursion of `carryOut`; the notes differ with every task, so they are left open.
  induction scene, tasks using Scene.carryOut.induct handler client generalizing journal with
  | case1 scene =>
    rw [Scene.carryOut]
    exact ⟨journal, rfl, .head (.refl _)⟩
  | case2 scene task rest phase rests =>
    simp only [Scene.carryOut, rests]
    refine ⟨journal, rfl, .head ?_⟩
    simp only [proceed, take, rests]
    exact .refl _
  | case3 scene task rest works inductionHypothesis =>
    simp only [Scene.carryOut, works, Scene.follow_noting]
    obtain ⟨middle, told, front⟩ := exists_proceeds_follow handler settings client
      (task.move scene.connection rest) scene.connection scene.memory (.working (task :: rest))
      written (journal ++ [.took task scene.connection.state])
    rw [Note.events_note rfl] at told
    obtain ⟨later, heard, back⟩ := inductionHypothesis middle
    rw [told] at heard back
    refine ⟨later, heard, .head (.trans ?_ back)⟩
    simp only [proceed, take, works]
    exact front

/-- A session that is left alone after an arrival does what a step of the session does, and its
handler is told of what it then remembers. -/
theorem exists_proceeds_arrive (phase : Phase) (arrival : Arrival) (connection : Connection)
    (memory : Memory) (written : Octets) (journal : List Note) :
    let (session, remembered) := (⟨connection, phase⟩ : Session).step handler.noting settings client
      (memory, Note.events journal) arrival
    ∃ later, Note.events later = remembered.2 ∧
      Proceeds handler settings client
        ((⟨connection, memory, .waiting phase, written, journal⟩ : Moment Memory).arrive settings
          arrival)
        ⟨session.connection, remembered.1, .waiting session.phase, written, later⟩ :=
  exists_proceeds_working handler settings client (phase.tasks settings arrival)
    ⟨connection, memory⟩ written journal

/-- A writer that is left alone writes what the connection has queued. -/
theorem exists_writes (connection : Connection) (memory : Memory) (activity : Activity Memory)
    (written : Octets) (journal : List Note) :
    ∃ count, (⟨connection, memory, activity, written, journal⟩ : Moment Memory).run handler settings
        client (List.replicate count .write) =
      ⟨connection.flush.2, memory, activity, written ++ connection.flush.1, journal⟩ := by
  obtain ⟨state, details, attached, queue⟩ := connection
  induction queue generalizing written with
  | nil => exact ⟨0, by simp [run, Connection.flush, Connection.written]⟩
  | cons item rest inductionHypothesis =>
    cases item with
    | data octets =>
      obtain ⟨count, reached⟩ := inductionHypothesis (written ++ octets)
      refine ⟨count + 1, ?_⟩
      rw [List.append_assoc] at reached
      exact reached
    | close frame =>
      refine ⟨1, ?_⟩
      simp [run, turn, write, Connection.flush, Connection.written, Connection.detach]

/-- A session that is left alone comes to wait for its socket. -/
theorem exists_proceeds_waiting (moment : Moment Memory) :
    ∃ phase later, Proceeds handler settings client moment later ∧
      later.activity = .waiting phase := by
  obtain ⟨connection, memory, activity, written, journal⟩ := moment
  cases activity with
  | waiting phase => exact ⟨phase, _, .refl _, rfl⟩
  | working tasks =>
    obtain ⟨later, -, reached⟩ := exists_proceeds_working handler settings client tasks
      ⟨connection, memory⟩ written journal
    exact ⟨_, _, reached, rfl⟩
  | reacting reaction tasks =>
    obtain ⟨middle, -, front⟩ := exists_proceeds_reacting handler settings client reaction tasks
      connection memory written journal
    obtain ⟨later, -, back⟩ := exists_proceeds_working handler settings client tasks
      ⟨(reaction.run connection).1, (reaction.run connection).2⟩ written middle
    exact ⟨_, _, front.trans back, rfl⟩

/-- Every run can be brought to its end: the session comes to wait, and the stream ends. -/
theorem exists_run_ended (moment : Moment Memory) :
    ∃ before behind, (moment.run handler settings client (List.replicate before .proceed ++
      .arrive .endOfStream :: List.replicate behind .proceed)).activity = .waiting .ended := by
  obtain ⟨phase, waiting, ⟨before, reached⟩, waits⟩ :=
    exists_proceeds_waiting handler settings client moment
  obtain ⟨connection, memory, activity, written, journal⟩ := waiting
  obtain rfl : activity = .waiting phase := waits
  obtain ⟨later, -, behind, ended⟩ := exists_proceeds_arrive handler settings client phase
    .endOfStream connection memory written journal
  refine ⟨before, behind, ?_⟩
  rw [run_append, reached]
  refine Eq.trans (congrArg Moment.activity ended) (congrArg Activity.waiting ?_)
  exact Session.phase_step_endOfStream handler.noting settings client ⟨connection, phase⟩ _

end Moment

end CashHerald.Session
