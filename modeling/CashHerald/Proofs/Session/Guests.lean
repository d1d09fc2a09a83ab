import CashHerald.Proofs.Session.Callbacks
import Mathlib

/-!
A client of a server, one thing at a time, with a handler that reacts to each event in one go. Main
statements: whatever is done for a client, what its handler has heard, whether its handshake has
completed, and whether there is anything left to do for it stay in line; behind its end nothing is
told of it, and nothing is queued for it.
-/

namespace CashHerald.Session

/-- A connection goes on as it is, or begins to close. -/
structure Connection.Persists (before after : Connection) : Prop where
  details : after.details = before.details
  state : after.state = before.state ∨ before.isAvailable = true ∧ after.state = .closing

namespace Connection.Persists

variable {first second third : Connection}

theorem refl (connection : Connection) : connection.Persists connection :=
  ⟨rfl, .inl rfl⟩

theorem trans (front : first.Persists second) (back : second.Persists third) :
    first.Persists third := by
  refine ⟨back.details.trans front.details, ?_⟩
  have early := front.state
  have late := back.state
  simp only [isAvailable] at early late ⊢
  grind

theorem send (connection : Connection) (opcode : Wire.Opcode) (payload : Octets) :
    connection.Persists (connection.send opcode payload).1 :=
  ⟨details_send connection opcode payload, .inl (state_send connection opcode payload)⟩

theorem close (connection : Connection) (code : UInt16) :
    connection.Persists (connection.close code) := by
  refine ⟨details_close connection code, ?_⟩
  rw [state_close]
  split_ifs with available
  · exact .inr ⟨available, rfl⟩
  · exact .inl rfl

/-- A handler cannot end a connection. -/
theorem run {Value : Type} (reaction : Reaction Value) (connection : Connection) :
    connection.Persists (reaction.run connection).1 := by
  induction reaction generalizing connection with
  | done value => exact refl connection
  | inspect next inductionHypothesis => exact inductionHypothesis _ _ connection
  | send opcode payload next inductionHypothesis =>
    exact (send connection opcode payload).trans (inductionHypothesis _ _)
  | close code next inductionHypothesis =>
    exact (close connection code).trans (inductionHypothesis _)

theorem closed_iff (persists : first.Persists second) :
    second.state = .closed ↔ first.state = .closed := by
  have state := persists.state
  simp only [isAvailable] at state
  grind

theorem standing (persists : first.Persists second) {stage : Stage} {tasks : List Task}
    (standing : Standing stage first tasks) (touched : first ≠ .fresh) :
    Standing stage second tasks :=
  standing.congr touched persists.details persists.state

end Connection.Persists

namespace Connection

variable (connection : Connection)

/-- The writer takes an item; it leaves behind an end. -/
def writeOne : Connection :=
  match connection.queue with
  | [] => connection
  | .data _ :: rest => ⟨connection.state, connection.details, connection.attached, rest⟩
  | .close _ :: _ => connection.detach

/-- The writer fails within an item and leaves. -/
def failWrite : Connection :=
  match connection.queue with
  | [] => connection
  | _ :: _ => connection.detach

theorem persists_writeOne : connection.Persists connection.writeOne := by
  unfold writeOne
  split <;> exact ⟨rfl, .inl rfl⟩

theorem persists_failWrite : connection.Persists connection.failWrite := by
  unfold failWrite
  split <;> exact ⟨rfl, .inl rfl⟩

theorem queue_writeOne_suffix : connection.writeOne.queue <:+ connection.queue := by
  unfold writeOne
  split
  · exact List.suffix_rfl
  · rename_i queued
    exact queued ▸ List.suffix_cons _ _
  · exact List.nil_suffix

theorem queue_failWrite_suffix : connection.failWrite.queue <:+ connection.queue := by
  unfold failWrite
  split
  · exact List.suffix_rfl
  · exact List.nil_suffix

end Connection

/-- The handler has heard that the connection has opened and not that it has closed. -/
def Stage.Present (stage : Stage) : Prop :=
  stage = .opened ∨ stage = .failed

theorem Stage.eq_opened_of_message {stage next : Stage} {event : Event}
    (message : event.isMessage = true) (hears : stage.hear? event = some next) :
    stage = .opened ∧ next = .opened := by
  cases stage with
  | opened =>
    rw [hear?_message message] at hears
    exact ⟨rfl, (Option.some.inj hears).symm⟩
  | _ => cases event <;> cases hears <;> cases message

/-- A session waits for its socket, or works on its tasks. -/
inductive Duty where
  | waiting (phase : Phase)
  | working (tasks : List Task)
  deriving DecidableEq, Repr

/-- What a session has left to do; one that waits has to wait. -/
def Duty.tasks : Duty → List Task
  | .waiting phase => (Activity.waiting phase : Activity Unit).tasks
  | .working tasks => tasks

/-- A client: its connection, what its session is at, and the notes of the calls that its session
has made. -/
structure Guest where
  connection : Connection
  duty : Duty
  journal : List Note

/-- What is done for a client: its session takes up an arrival or goes on with its tasks, or its
writer takes an item or fails. -/
inductive Doing where
  | arrive (arrival : Arrival)
  | proceed
  | write
  | failWrite

namespace Task

variable {tasks : List Task}

theorem Later.ne_nil (later : Later tasks) : tasks ≠ [] := by
  cases later <;> simp [failing]

theorem Last.ne_nil (last : Last tasks) : tasks ≠ [] := by
  cases last <;> simp

theorem Early.ne_nil (early : Early tasks) : tasks ≠ [] := by
  cases early with
  | last last => exact last.ne_nil
  | _ => simp [failing]

end Task

/-- An arrival leaves something to do, unless the session has ended. -/
theorem Phase.tasks_eq_nil_iff (settings : Settings) (phase : Phase) (arrival : Arrival) :
    phase.tasks settings arrival = [] ↔ (Duty.waiting phase).tasks = [] := by
  cases phase with
  | ended => exact iff_of_true rfl rfl
  | awaiting received => exact iff_of_false (early_tasks settings received arrival).ne_nil nofun
  | speaking decoder => exact iff_of_false (later_tasks settings decoder arrival).ne_nil nofun

section Closing

variable {connection : Connection} {task : Task} {rest : List Task}

/-- Only the last thing that is done for a connection has nothing behind it. -/
theorem Standing.rest_ne_nil {stage : Stage} (standing : Standing stage connection (task :: rest))
    (waits : ∀ phase, task ≠ .wait phase) (goes : task ≠ .finish) : rest ≠ [] := by
  have later (fits : Task.Later (task :: rest)) : rest ≠ [] := by
    cases fits with
    | deliver message behind => exact behind.ne_nil
    | wait decoder => exact absurd rfl (waits _)
    | fail fault => simp
    | finish => exact absurd rfl goes
  have last (fits : Task.Last (task :: rest)) : rest ≠ [] := by
    cases fits with
    | close code => simp
    | finish => exact absurd rfl goes
  cases standing with
  | fresh early =>
    cases early with
    | wait received => exact absurd rfl (waits _)
    | servePolicy => simp
    | complete answers behind => exact behind.ne_nil
    | fail fault => simp
    | last fits => exact last fits
  | refused silent left =>
    obtain ⟨rfl, rfl⟩ : task = .finish ∧ rest = [] := by simpa using left
    exact absurd rfl goes
  | opened heard state fits => exact later fits
  | failed heard state fits => exact last fits

/-- A task other than the last one leaves something to do. -/
theorem Task.left_ne_nil (goes : task ≠ .finish)
    (behind : (∀ phase, task ≠ .wait phase) → rest ≠ []) :
    (task.move connection rest).left ≠ [] := by
  cases task with
  | complete details response =>
    simp only [move]
    split
    · exact behind (by simp)
    · simp [failing]
  | deliver message =>
    have more := behind (by simp)
    simp only [move]
    split
    · cases message <;> simp [delivery, more]
    · simp
  | wait phase => simp [move]
  | finish => exact absurd rfl goes
  | _ => exact behind (by simp)

theorem Connection.state_close_ne_closed (state : connection.state ≠ .closed) (code : UInt16) :
    (connection.close code).state ≠ .closed := by
  rw [state_close]
  split_ifs
  · simp
  · exact state

/-- No call but the last one tears a connection down. -/
theorem Connection.state_perform_ne_closed {call : Call} (goes : call ≠ .finish)
    (state : connection.state ≠ .closed) : (connection.perform call).1.state ≠ .closed := by
  cases call with
  | servePolicy =>
    refine state_close_ne_closed ?_ _
    rw [state_enqueue]
    exact state
  | complete details response =>
    simp only [perform, complete]
    split_ifs
    · exact state
    · simp [withState]
    · rw [state_enqueue]
      exact state
  | close code => exact state_close_ne_closed state code
  | finish => exact absurd rfl goes

/-- No task but the last one makes the last call. -/
theorem Task.call_ne_finish (goes : task ≠ .finish) :
    (task.move connection rest).call ≠ some .finish := by
  cases task with
  | complete details response =>
    simp only [move]
    split <;> simp
  | deliver message =>
    simp only [move]
    split
    · cases message <;> simp [delivery]
    · simp
  | finish => exact absurd rfl goes
  | _ => simp [move]

/-- A session has nothing left to do exactly when its connection has been torn down. -/
theorem Standing.closed_follow_iff {stage : Stage}
    (standing : Standing stage connection (task :: rest)) (state : connection.state ≠ .closed) :
    (connection.follow (task.move connection rest)).state = .closed ↔
      (task.move connection rest).left = [] := by
  by_cases goes : task = .finish
  · subst goes
    exact iff_of_true rfl rfl
  · refine iff_of_false ?_ (Task.left_ne_nil goes fun waits => standing.rest_ne_nil waits goes)
    have plain : (task.move connection rest).call ≠ some .finish := Task.call_ne_finish goes
    unfold Connection.follow
    split
    · exact state
    · rename_i call same
      exact Connection.state_perform_ne_closed (fun last => plain (last ▸ same)) state

end Closing

namespace Guest

/-- A client that has connected. -/
def fresh : Guest :=
  ⟨.fresh, .waiting (.awaiting []), []⟩

/-- The client with a connection that others have changed. -/
def withConnection (guest : Guest) (connection : Connection) : Guest :=
  ⟨connection, guest.duty, guest.journal⟩

/-- The client with something else to do. -/
def turnTo (guest : Guest) (duty : Duty) : Guest :=
  ⟨guest.connection, duty, guest.journal⟩

/-- The handshake of the client has completed in a dialect that has messages. -/
def Completed (guest : Guest) : Prop :=
  ∃ note ∈ guest.journal, note.completes

/-- The connection of the client has been torn down. -/
def Ended (guest : Guest) : Prop :=
  guest.connection.state = .closed

variable {Memory : Type}

/-- The session takes up a task, and its handler reacts to what comes of it. -/
def take (handler : Handler Memory) (client : Nat) (guest : Guest) (memory : Memory) (task : Task)
    (rest : List Task) : Guest × Memory :=
  match task.rest? guest.connection with
  | some phase => (guest.turnTo (.waiting phase), memory)
  | none =>
    let move := task.move guest.connection rest
    let scene := (⟨guest.connection, memory⟩ : Scene Memory).follow handler client move
    (⟨scene.connection, .working move.left, guest.journal ++ move.notes guest.connection⟩,
      scene.memory)

/-- The client after something has been done for it, with what the handler then remembers. -/
def act (handler : Handler Memory) (settings : Settings) (client : Nat) (guest : Guest)
    (memory : Memory) : Doing → Guest × Memory
  | .arrive arrival =>
    match guest.duty with
    | .waiting phase => (guest.turnTo (.working (phase.tasks settings arrival)), memory)
    | .working _ => (guest, memory)
  | .proceed =>
    match guest.duty with
    | .waiting _ => (guest, memory)
    | .working [] => (guest.turnTo (.waiting .ended), memory)
    | .working (task :: rest) => guest.take handler client memory task rest
  | .write => (guest.withConnection guest.connection.writeOne, memory)
  | .failWrite => (guest.withConnection guest.connection.failWrite, memory)

/-- What the handler has heard of a client fits what is left to do for it, its handshake and its
end. -/
structure Seated (guest : Guest) (stage : Stage) : Prop where
  standing : Standing stage guest.connection guest.duty.tasks
  completed : stage ≠ .unheard ↔ guest.Completed
  ended : guest.Ended ↔ guest.duty.tasks = []

theorem seated_fresh : fresh.Seated .unheard where
  standing := .fresh (.wait [])
  completed := by simp [fresh, Completed]
  ended := by simp [fresh, Ended, Connection.fresh, Duty.tasks, Activity.tasks]

section Seated

variable {guest : Guest} {stage : Stage}

theorem Seated.present_iff (seated : guest.Seated stage) :
    stage.Present ↔ guest.Completed ∧ ¬guest.Ended := by
  rw [← seated.completed]
  have standing := seated.standing
  unfold Ended
  cases stage with
  | unheard => simp [Stage.Present]
  | opened =>
    cases standing with
    | opened heard state later => rcases state with same | same <;> simp [Stage.Present, same]
  | failed =>
    cases standing with
    | failed heard state last => rcases state with same | same <;> simp [Stage.Present, same]
  | ended =>
    generalize guest.duty.tasks = tasks at standing
    cases standing with
    | ended state => simp [Stage.Present, state]

/-- Others may send on the connection of a client and begin to close it. -/
theorem Seated.persist (seated : guest.Seated stage) {connection : Connection}
    (persists : guest.connection.Persists connection) (touched : guest.connection ≠ .fresh) :
    (guest.withConnection connection).Seated stage where
  standing := persists.standing seated.standing touched
  completed := seated.completed
  ended := persists.closed_iff.trans seated.ended

/-- The session turns to something with other tasks that fit as well. -/
theorem Seated.turnTo (seated : guest.Seated stage) {duty : Duty}
    (standing : Standing stage guest.connection duty.tasks)
    (ended : duty.tasks = [] ↔ guest.duty.tasks = []) : (guest.turnTo duty).Seated stage where
  standing := standing
  completed := seated.completed
  ended := seated.ended.trans ended.symm

/-- A writer that takes an item leaves a client as it is otherwise. -/
theorem Seated.writer (seated : guest.Seated stage) (change : Connection → Connection)
    (idle : guest.connection.queue = [] → change guest.connection = guest.connection)
    (persists : guest.connection.Persists (change guest.connection)) :
    (guest.withConnection (change guest.connection)).Seated stage := by
  cases queued : guest.connection.queue with
  | nil =>
    rw [idle queued]
    exact seated
  | cons item rest => exact seated.persist persists (Connection.ne_fresh_of_queue queued)

end Seated

/-- Between two moments a handler has heard nothing of a client, or it has heard of one event and
reacted to it. -/
inductive Heard {Memory : Type} (handler : Handler Memory) (client : Nat) (memory : Memory) :
    Stage → Stage → Memory → Prop
  | nothing (stage : Stage) : Heard handler client memory stage stage memory
  | event {stage next : Stage} {event : Event} (hears : stage.hear? event = some next)
    (connection : Connection) :
    Heard handler client memory stage next ((handler memory client event).run connection).2

section Act

variable {guest : Guest} {stage : Stage} {Memory : Type}

/-- A session that follows a move stays in line with what its handler hears. -/
theorem Seated.follow (seated : guest.Seated stage) {task : Task} {rest : List Task}
    (works : guest.duty.tasks = task :: rest) (goes : task.rest? guest.connection = none)
    (handler : Handler Memory) (client : Nat) (memory : Memory) :
    ∃ next, (guest.take handler client memory task rest).1.Seated next ∧
      Heard handler client memory stage next (guest.take handler client memory task rest).2 := by
  have standing := seated.standing
  have state : guest.connection.state ≠ .closed := by
    intro closed
    have idle := seated.ended.mp closed
    rw [works] at idle
    cases idle
  rw [works] at standing
  obtain ⟨next, fits⟩ := standing.exists_fits goes
  have ended := standing.closed_follow_iff state
  have called : (⟨guest.connection.follow (task.move guest.connection rest),
      .working (task.move guest.connection rest).left,
      guest.journal ++ (task.move guest.connection rest).notes guest.connection⟩ :
        Guest).Seated next := by
    refine ⟨fits.standing, ?_, ended⟩
    rw [← fits.completed, seated.completed]
    simp only [Completed, List.mem_append, or_and_right, exists_or]
  simp only [take, goes]
  generalize task.move guest.connection rest = move at fits called
  obtain ⟨call, event, left⟩ := move
  have heard := fits.heard
  cases event with
  | none =>
    obtain rfl : stage = next := Option.some.inj heard
    exact ⟨stage, called, .nothing stage⟩
  | some event =>
    have hears : stage.hear? event = some next := by
      simpa [Stage.hearAll?_cons] using heard
    have known : next ≠ .unheard := by
      rintro rfl
      exact Stage.hear?_ne_unheard _ _ hears
    exact ⟨next, called.persist (.run _ _) (fits.standing.ne_fresh known), .event hears _⟩

/-- The session takes up a task. -/
theorem Seated.take (seated : guest.Seated stage) {task : Task} {rest : List Task}
    (works : guest.duty.tasks = task :: rest) (handler : Handler Memory) (client : Nat)
    (memory : Memory) :
    ∃ next, (guest.take handler client memory task rest).1.Seated next ∧
      Heard handler client memory stage next (guest.take handler client memory task rest).2 := by
  cases rests : task.rest? guest.connection with
  | none => exact seated.follow works rests handler client memory
  | some phase =>
    -- A task that waits is the last one, so the session keeps what it has to do.
    obtain rfl : task = .wait phase := Task.eq_wait_of_rest?_eq_some rests
    have standing := seated.standing
    rw [works] at standing
    obtain ⟨goes, rfl⟩ := standing.wait
    have same : (Duty.waiting phase).tasks = guest.duty.tasks := by
      rw [works]
      exact Activity.tasks_waiting goes
    simp only [Guest.take, rests]
    exact ⟨stage, seated.turnTo (same ▸ seated.standing) (by rw [same]), .nothing stage⟩

/-- Whatever is done for a client, what its handler hears stays in line with the rest. -/
theorem Seated.act (seated : guest.Seated stage) (handler : Handler Memory) (settings : Settings)
    (client : Nat) (memory : Memory) (doing : Doing) :
    ∃ next, (guest.act handler settings client memory doing).1.Seated next ∧
      Heard handler client memory stage next
        (guest.act handler settings client memory doing).2 := by
  cases doing with
  | arrive arrival =>
    simp only [Guest.act]
    split
    · rename_i phase waits
      have standing := seated.standing
      rw [waits] at standing
      refine ⟨stage, seated.turnTo (standing.arrive settings arrival) ?_, .nothing stage⟩
      rw [waits]
      exact Phase.tasks_eq_nil_iff settings phase arrival
    · exact ⟨stage, seated, .nothing stage⟩
  | proceed =>
    simp only [Guest.act]
    split
    · exact ⟨stage, seated, .nothing stage⟩
    · rename_i works
      have same : (Duty.waiting .ended).tasks = guest.duty.tasks := by rw [works]; rfl
      exact ⟨stage, seated.turnTo (same ▸ seated.standing) (by rw [same]), .nothing stage⟩
    · rename_i works
      exact seated.take (by rw [works]; rfl) handler client memory
  | write =>
    refine ⟨stage, seated.writer .writeOne ?_ ?_, .nothing stage⟩
    · intro idle
      simp [Connection.writeOne, idle]
    · exact guest.connection.persists_writeOne
  | failWrite =>
    refine ⟨stage, seated.writer .failWrite ?_ ?_, .nothing stage⟩
    · intro idle
      simp [Connection.failWrite, idle]
    · exact guest.connection.persists_failWrite

/-- Behind its end nothing is told of a client, and its writer only takes what is queued. -/
theorem Seated.act_of_ended (seated : guest.Seated stage) (ended : guest.Ended)
    (handler : Handler Memory) (settings : Settings) (client : Nat) (memory : Memory)
    (doing : Doing) :
    (guest.act handler settings client memory doing).1.Ended ∧
      (guest.act handler settings client memory doing).1.connection.queue <:+
        guest.connection.queue ∧
      (guest.act handler settings client memory doing).2 = memory := by
  cases doing with
  | arrive arrival =>
    simp only [Guest.act]
    split <;> exact ⟨ended, List.suffix_rfl, rfl⟩
  | proceed =>
    have idle := seated.ended.mp ended
    simp only [Guest.act]
    split
    · exact ⟨ended, List.suffix_rfl, rfl⟩
    · exact ⟨ended, List.suffix_rfl, rfl⟩
    · rename_i works
      rw [works] at idle
      cases idle
  | write =>
    exact ⟨guest.connection.persists_writeOne.closed_iff.mpr ended,
      guest.connection.queue_writeOne_suffix, rfl⟩
  | failWrite =>
    exact ⟨guest.connection.persists_failWrite.closed_iff.mpr ended,
      guest.connection.queue_failWrite_suffix, rfl⟩

end Act

end Guest

end CashHerald.Session
