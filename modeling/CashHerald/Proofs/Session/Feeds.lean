import CashHerald.Proofs.Session.Reads
import CashHerald.Proofs.Session.Verdict
import CashHerald.Proofs.Upgrade.Grammar

/-!
What the decoder of a session is fed. A watched run also keeps the octets that the session has read,
and those that it has given to its decoder. Main statements: a session goes on as its decoder goes
on, whatever everybody else does, and it feeds the decoder with all that it reads behind the
request.
-/

namespace CashHerald.Session

/-- The event by which a handler is told of a message. -/
def Event.ofMessage? (message : Wire.Message) : Option Event :=
  (Task.delivery [] message).event

/-- The events by which a handler is told of some messages. -/
def Event.ofMessages (messages : List Wire.Message) : List Event :=
  messages.filterMap ofMessage?

namespace Task

/-- Tasks behind which nothing is read any more. -/
inductive Final : List Task → Prop
  | nothing : Final []
  | last {tasks : List Task} (last : Last tasks) : Final tasks
  | fail (fault : Wire.Fault) : Final (failing fault)

theorem Final.move {task : Task} {rest : List Task} (final : Final (task :: rest))
    (connection : Connection) : Final (task.move connection rest).left := by
  cases final with
  | last last =>
    cases last with
    | close code => exact .last .finish
    | finish => exact .nothing
  | fail fault => exact .last (.close fault.code)

theorem Final.waiting {Memory : Type} {phase : Phase}
    (final : Final (Activity.waiting phase : Activity Memory).tasks) : phase = .ended := by
  cases phase with
  | ended => rfl
  | _ =>
    cases final with
    | last last => cases last

/-- The tasks of a session that gives octets to its decoder, if it has some. -/
def feeding (decoder : Wire.Decoder) : List Octets → List Task
  | [] => [.wait (.speaking decoder)]
  | octets :: _ => Phase.receive decoder octets

end Task

namespace Phase

/-- The octets that a session takes up with an arrival. -/
def reads : Phase → Arrival → List Octets
  | .ended, _ => []
  | _, .data octets => [octets]
  | _, _ => []

/-- The octets behind a request that is answered, if there are some. -/
def leftover (settings : Settings) (received : Octets) : List Octets :=
  match Upgrade.Reading.of settings.scheme received with
  | .request request =>
    if (answer? settings request).isSome ∧ received.drop request.raw.length ≠ [] then
      [received.drop request.raw.length]
    else []
  | _ => []

/-- The octets that a session gives to its decoder with an arrival. -/
def feeds (settings : Settings) : Phase → Arrival → List Octets
  | .awaiting received, .data octets => leftover settings (received ++ octets)
  | .speaking _, .data octets => [octets]
  | _, _ => []

end Phase

/-- A run with the octets that its session has read, and those that it has given to its decoder. -/
structure Watched (Memory : Type) where
  moment : Moment Memory
  reads : List Octets
  feeds : List Octets

namespace Watched

variable {Memory : Type}

def start (memory : Memory) : Watched Memory :=
  ⟨.start memory, [], []⟩

/-- The run after a turn. Only an arrival at a session that waits is taken up. -/
def turn (handler : Handler Memory) (settings : Settings) (client : Nat) (watched : Watched Memory)
    (turn : Turn Memory) : Watched Memory :=
  match watched.moment.activity, turn with
  | .waiting phase, .arrive arrival =>
    ⟨watched.moment.turn handler settings client (.arrive arrival),
      watched.reads ++ phase.reads arrival, watched.feeds ++ phase.feeds settings arrival⟩
  | _, _ => ⟨watched.moment.turn handler settings client turn, watched.reads, watched.feeds⟩

/-- The run after some turns. -/
def run (handler : Handler Memory) (settings : Settings) (client : Nat) (watched : Watched Memory)
    (turns : List (Turn Memory)) : Watched Memory :=
  turns.foldl (turn handler settings client) watched

theorem run_append (handler : Handler Memory) (settings : Settings) (client : Nat)
    (watched : Watched Memory) (first second : List (Turn Memory)) :
    watched.run handler settings client (first ++ second) =
      (watched.run handler settings client first).run handler settings client second :=
  List.foldl_append

theorem moment_turn (handler : Handler Memory) (settings : Settings) (client : Nat)
    (watched : Watched Memory) (next : Turn Memory) :
    (watched.turn handler settings client next).moment =
      watched.moment.turn handler settings client next := by
  unfold turn
  split <;> rfl

/-- Watching a run does not change it. -/
theorem moment_run (handler : Handler Memory) (settings : Settings) (client : Nat)
    (watched : Watched Memory) (turns : List (Turn Memory)) :
    (watched.run handler settings client turns).moment =
      watched.moment.run handler settings client turns := by
  induction turns generalizing watched with
  | nil => rfl
  | cons next rest inductionHypothesis =>
    rw [run, List.foldl_cons, ← run, inductionHypothesis, moment_turn]
    rfl

end Watched

/-- Following a move leaves the details of a connection that has some. -/
theorem Connection.details_follow {connection : Connection} {details : Details}
    (known : connection.details = some details) (move : Move) :
    (connection.follow move).details = some details := by
  unfold follow
  split
  · exact known
  · exact details_perform known _

namespace Moment

variable {Memory : Type}

/-- A turn leaves alone what the handler has heard, what is left to do, and the details. -/
structure Rests (earlier later : Moment Memory) : Prop where
  callbacks : later.callbacks = earlier.callbacks
  tasks : later.activity.tasks = earlier.activity.tasks
  details : later.connection.details = earlier.connection.details

/-- A turn carries out a task. -/
structure Moves (earlier later : Moment Memory) (task : Task) (rest : List Task) : Prop where
  tasks : earlier.activity.tasks = task :: rest
  works : task.rest? earlier.connection = none
  callbacks : later.callbacks =
    earlier.callbacks ++ (task.move earlier.connection rest).event.toList
  left : later.activity.tasks = (task.move earlier.connection rest).left
  connection : later.connection = earlier.connection.follow (task.move earlier.connection rest)

/-- A session that waits takes up an arrival. -/
structure Takes (settings : Settings) (earlier later : Moment Memory) (phase : Phase)
    (arrival : Arrival) : Prop where
  waits : earlier.activity = .waiting phase
  callbacks : later.callbacks = earlier.callbacks
  tasks : later.activity.tasks = phase.tasks settings arrival
  connection : later.connection = earlier.connection

section Turns

variable {moment later : Moment Memory} {stage : Stage}

theorem rests_of_notes {notes : List Note} (journal : later.journal = moment.journal ++ notes)
    (silent : ∀ note ∈ notes, note.event? = none)
    (tasks : later.activity.tasks = moment.activity.tasks)
    (details : later.connection.details = moment.connection.details) : moment.Rests later where
  callbacks := by
    have nothing : notes.filterMap Note.event? = [] := List.filterMap_eq_nil_iff.mpr silent
    rw [callbacks, journal, List.filterMap_append, nothing, List.append_nil, callbacks]
  tasks := tasks
  details := details

theorem rests_of_journal (journal : later.journal = moment.journal)
    (tasks : later.activity.tasks = moment.activity.tasks)
    (details : later.connection.details = moment.connection.details) : moment.Rests later :=
  rests_of_notes (journal.trans (List.append_nil _).symm) (by simp) tasks details

theorem rests_react {reaction : Reaction Memory} {tasks : List Task}
    (reacts : moment.activity = .reacting reaction tasks) :
    moment.Rests (moment.react tasks reaction) := by
  have same : moment.activity.tasks = tasks := congrArg Activity.tasks reacts
  cases reaction with
  | done memory => exact rests_of_journal rfl same.symm rfl
  | inspect next => exact rests_of_journal rfl same.symm rfl
  | send opcode payload next =>
    exact rests_of_notes rfl (by simp [Note.event?]) same.symm (Connection.details_send _ _ _)
  | close code next =>
    exact rests_of_notes rfl (by simp [Note.event?]) same.symm (Connection.details_close _ _)

theorem take_cases {task : Task} {rest : List Task} (disciplined : moment.Disciplined stage)
    (works : moment.activity = .working (task :: rest)) (handler : Handler Memory) (client : Nat) :
    moment.Rests (moment.take handler client task rest) ∨
      moment.Moves (moment.take handler client task rest) task rest := by
  have tasks : moment.activity.tasks = task :: rest := congrArg Activity.tasks works
  have standing := disciplined.standing
  rw [tasks] at standing
  unfold Moment.take
  split
  · -- A session that waits again has nothing else to do.
    rename_i phase rests
    obtain rfl := Task.eq_wait_of_rest?_eq_some rests
    obtain ⟨goes, rfl⟩ := standing.wait
    exact .inl (rests_of_journal rfl ((Activity.tasks_waiting goes).trans tasks.symm) rfl)
  · rename_i works
    refine .inr ⟨tasks, works, ?_, tasks_follow _ _ _ _, connection_follow _ _ _ _⟩
    rw [callbacks_follow]
    exact congrArg (· ++ _) (Note.events_note rfl moment.journal)

theorem rests_write (moment : Moment Memory) : moment.Rests moment.write := by
  unfold Moment.write
  split <;> exact rests_of_journal rfl rfl rfl

theorem rests_failWrite (moment : Moment Memory) (count : Nat) :
    moment.Rests (moment.failWrite count) := by
  unfold Moment.failWrite
  split <;> exact rests_of_journal rfl rfl rfl

/-- A turn carries out a task, has an arrival taken up, or leaves alone what matters here. -/
theorem turn_cases (disciplined : moment.Disciplined stage) (handler : Handler Memory)
    (settings : Settings) (client : Nat) (turn : Turn Memory) :
    moment.Rests (moment.turn handler settings client turn) ∨
      (∃ task rest, moment.Moves (moment.turn handler settings client turn) task rest) ∨
      ∃ phase arrival, turn = .arrive arrival ∧
        moment.Takes settings (moment.turn handler settings client turn) phase arrival := by
  have still : moment.Rests moment := rests_of_journal rfl rfl rfl
  cases turn with
  | arrive arrival =>
    simp only [Moment.turn, Moment.arrive]
    split
    · rename_i phase waits
      exact .inr (.inr ⟨phase, arrival, rfl, waits, rfl, rfl, rfl⟩)
    · exact .inl still
  | proceed =>
    simp only [Moment.turn, Moment.proceed]
    split
    · exact .inl still
    · rename_i works
      exact .inl (rests_of_journal rfl (congrArg Activity.tasks works).symm rfl)
    · rename_i task rest works
      exact (take_cases disciplined works handler client).imp_right
        fun moves => .inl ⟨task, rest, moves⟩
    · rename_i reacts
      exact .inl (rests_react reacts)
  | send opcode payload =>
    simp only [Moment.turn]
    split
    · exact .inl still
    · exact .inl (rests_of_notes rfl (by simp [Note.event?]) rfl (Connection.details_send _ _ _))
  | close code =>
    simp only [Moment.turn]
    split
    · exact .inl still
    · exact .inl (rests_of_notes rfl (by simp [Note.event?]) rfl (Connection.details_close _ _))
  | remember memory => exact .inl (rests_of_journal rfl rfl rfl)
  | write => exact .inl (rests_write moment)
  | failWrite count => exact .inl (rests_failWrite moment count)

/-- A turn leaves the details of a connection that has some. -/
theorem details_turn (disciplined : moment.Disciplined stage) {details : Details}
    (known : moment.connection.details = some details) (handler : Handler Memory)
    (settings : Settings) (client : Nat) (turn : Turn Memory) :
    (moment.turn handler settings client turn).connection.details = some details := by
  rcases turn_cases disciplined handler settings client turn with
    rests | ⟨task, rest, moves⟩ | ⟨phase, arrival, -, takes⟩
  · exact rests.details.trans known
  · rw [moves.connection]
    exact Connection.details_follow known _
  · rw [takes.connection, known]

end Turns

end Moment

/-- What a decoder has been fed fits what the handler has heard of it and what is left to do. It
goes on with the messages of what has been accepted; or the session stops without feeding it again;
or a read has been refused, and the handler is told of the violation behind the messages of the
reads before. -/
inductive Hears (fresh : Wire.Decoder) (feeds : List Octets) (events : List Event) :
    List Task → Prop
  | goes {accepted : List (List Wire.Message)} {decoder : Wire.Decoder}
    {told untold : List Wire.Message}
    (fed : Wire.Feeding.transcript Wire.Decoder.feed fresh feeds = ⟨accepted, none, decoder⟩)
    (messages : accepted.flatten = told ++ untold) (heard : events = Event.ofMessages told) :
    Hears fresh feeds events (Task.deliveries untold (.speaking decoder))
  | stops {accepted : List (List Wire.Message)} {decoder : Wire.Decoder} {tasks : List Task}
    (fed : Wire.Feeding.transcript Wire.Decoder.feed fresh feeds = ⟨accepted, none, decoder⟩)
    (final : Task.Final tasks) : Hears fresh feeds events tasks
  | refused {before : List Octets} {read : Octets} {accepted : List (List Wire.Message)}
    {decoder last : Wire.Decoder} {violation : Wire.Violation} {tasks : List Task}
    (cut : feeds = before ++ [read])
    (fed : Wire.Feeding.transcript Wire.Decoder.feed fresh before = ⟨accepted, none, decoder⟩)
    (refused : decoder.feed read = (.error violation, last)) (final : Task.Final tasks)
    (heard : events = Event.ofMessages accepted.flatten ∧
        tasks = Task.failing (.protocol violation) ∨
      ∃ later, events =
        Event.ofMessages accepted.flatten ++ .failed (.protocol violation) :: later) :
    Hears fresh feeds events tasks

namespace Hears

variable {fresh : Wire.Decoder} {feeds : List Octets} {events : List Event}

theorem event_delivery (message : Wire.Message) (rest : List Task) :
    (Task.delivery rest message).event = Event.ofMessage? message := by
  cases message <;> rfl

theorem ofMessages_concat (messages : List Wire.Message) (message : Wire.Message) :
    Event.ofMessages (messages ++ [message]) =
      Event.ofMessages messages ++ (Event.ofMessage? message).toList := by
  rw [Event.ofMessages, List.filterMap_append, ← Event.ofMessages]
  cases told : Event.ofMessage? message <;> simp [told]

/-- A task that is carried out keeps what fits. -/
theorem move {task : Task} {rest : List Task} (hears : Hears fresh feeds events (task :: rest))
    {connection : Connection} (known : connection.details.isSome = true) :
    Hears fresh feeds (events ++ (task.move connection rest).event.toList)
      (task.move connection rest).left := by
  generalize works : task :: rest = tasks at hears
  cases hears with
  | @goes accepted decoder told untold fed messages heard =>
    have stopped (event : Option Event) :
        Hears fresh feeds (events ++ event.toList) [.finish] := .stops fed (.last .finish)
    cases untold with
    | nil =>
      obtain ⟨rfl, rfl⟩ := List.cons.inj works
      exact stopped none
    | cons message untold =>
      obtain rfl : task = .deliver message := (List.cons.inj works).1
      have behind : rest = Task.deliveries untold (.speaking decoder) := (List.cons.inj works).2
      have more : Hears fresh feeds (events ++ (Event.ofMessage? message).toList) rest := by
        rw [behind]
        refine @goes _ _ _ _ _ (told ++ [message]) _ fed (by simp [messages]) ?_
        rw [heard, ofMessages_concat]
      have moved : Task.move connection rest (.deliver message) =
          if connection.isAvailable then Task.delivery rest message
          else ⟨none, none, [.finish]⟩ := rfl
      rw [moved]
      split
      · rw [event_delivery]
        cases message with
        | close code => exact stopped _
        | _ => exact more
      · exact stopped none
  | stops fed final =>
    subst works
    exact .stops fed (final.move connection)
  | refused cut fed refused final heard =>
    subst works
    refine .refused cut fed refused (final.move connection) (.inr ?_)
    rcases heard with ⟨rfl, same⟩ | ⟨later, rfl⟩
    · obtain ⟨rfl, rfl⟩ := List.cons.inj same
      exact ⟨[], by simp [Task.move, known]⟩
    · exact ⟨later ++ (task.move connection rest).event.toList, by simp⟩

/-- What a session that waits has been fed. -/
theorem waiting {Memory : Type} {phase : Phase}
    (hears : Hears fresh feeds events (Activity.waiting phase : Activity Memory).tasks) :
    (∃ accepted decoder, phase = .speaking decoder ∧
      Wire.Feeding.transcript Wire.Decoder.feed fresh feeds = ⟨accepted, none, decoder⟩ ∧
      events = Event.ofMessages accepted.flatten) ∨ phase = .ended := by
  generalize works : (Activity.waiting phase : Activity Memory).tasks = tasks at hears
  cases hears with
  | @goes accepted decoder told untold fed messages heard =>
    have waits : phase = .speaking decoder ∧ untold = [] := by
      cases untold with
      | nil => cases phase <;> simp_all [Activity.tasks, Task.deliveries]
      | cons message untold => cases phase <;> simp_all [Activity.tasks, Task.deliveries]
    obtain ⟨rfl, rfl⟩ := waits
    rw [List.append_nil] at messages
    exact .inl ⟨accepted, decoder, rfl, fed, by rw [messages, heard]⟩
  | stops fed final =>
    subst works
    exact .inr final.waiting
  | refused cut fed refused final heard =>
    subst works
    exact .inr final.waiting

/-- A read that is fed to the decoder keeps what fits. -/
theorem receive {accepted : List (List Wire.Message)} {decoder : Wire.Decoder}
    (fed : Wire.Feeding.transcript Wire.Decoder.feed fresh feeds = ⟨accepted, none, decoder⟩)
    (heard : events = Event.ofMessages accepted.flatten) (octets : Octets) :
    Hears fresh (feeds ++ [octets]) events (Phase.receive decoder octets) := by
  rcases found : decoder.feed octets with ⟨violation | messages, next⟩
  · simp only [Phase.receive, found]
    exact .refused rfl fed found (.fail _) (.inl ⟨heard, rfl⟩)
  · rw [Phase.receive_of_ok found]
    refine .goes (Wire.Feeding.transcript_concat fed found) ?_ heard
    simp

/-- An arrival at a session that waits keeps what fits. -/
theorem take {Memory : Type} {phase : Phase}
    (hears : Hears fresh feeds events (Activity.waiting phase : Activity Memory).tasks)
    (settings : Settings) (arrival : Arrival) :
    Hears fresh (feeds ++ phase.feeds settings arrival) events (phase.tasks settings arrival) := by
  rcases hears.waiting with ⟨accepted, decoder, rfl, fed, heard⟩ | rfl
  · have stopped {tasks : List Task} (final : Task.Final tasks) :
        Hears fresh (feeds ++ []) events tasks := by
      rw [List.append_nil]
      exact .stops fed final
    cases arrival with
    | data octets => exact receive fed heard octets
    | endOfStream => exact stopped (.last .finish)
    | failure => exact stopped (.fail .transport)
    | writerEnded => exact stopped (.last .finish)
  · have nothing : Phase.feeds settings .ended arrival = [] := by cases arrival <;> rfl
    rw [nothing, List.append_nil]
    exact hears

/-- A fresh decoder that is fed at most once. -/
theorem feeding (decoder : Wire.Decoder) (few : feeds.length ≤ 1) :
    Hears decoder feeds [] (Task.feeding decoder feeds) := by
  rcases feeds with _ | ⟨octets, _ | ⟨next, rest⟩⟩
  · exact @goes decoder [] [] [] decoder [] [] rfl rfl rfl
  · exact @receive decoder [] [] [] decoder rfl rfl octets
  · simp at few

end Hears

/-- The octets received start with a request that is answered, and a decoder reads on behind it. -/
structure Accepts (settings : Settings) (received : Octets) (request : Upgrade.Request)
    (details : Details) (response : Octets) (decoder : Wire.Decoder) : Prop where
  read : Upgrade.Reading.of settings.scheme received = .request request
  answers : answer? settings request = some (details, response)
  speaks : details.dialect.decoder? = some decoder

namespace Accepts

variable {settings : Settings} {received : Octets} {request : Upgrade.Request} {details : Details}
  {response : Octets} {decoder : Wire.Decoder}

theorem append (accepts : Accepts settings received request details response decoder)
    (more : Octets) : Accepts settings (received ++ more) request details response decoder :=
  ⟨Upgrade.Reading.of_append_of_request accepts.read more, accepts.answers, accepts.speaks⟩

/-- Octets that are received behind the request are behind it in the stream. -/
theorem drop_append (accepts : Accepts settings received request details response decoder)
    (more : Octets) :
    (received ++ more).drop request.raw.length = received.drop request.raw.length ++ more :=
  List.drop_append_of_le_length (Upgrade.Reading.exists_consists accepts.read).1.length_le

theorem flatten_leftover (accepts : Accepts settings received request details response decoder) :
    (Phase.leftover settings received).flatten = received.drop request.raw.length := by
  simp only [Phase.leftover, accepts.read, accepts.answers]
  split
  · simp
  · simp_all

/-- The request is answered first, and then the octets behind it are read. -/
theorem awaitRequest (accepts : Accepts settings received request details response decoder) :
    Phase.awaitRequest settings received =
      .complete details response :: Task.feeding decoder (Phase.leftover settings received) := by
  have answers := accepts.answers
  unfold answer? at answers
  split at answers
  · rename_i dialect subProtocol asked agreed
    split at answers
    · rename_i answered
      cases answers
      simp only [Phase.awaitRequest, accepts.read, Phase.upgrade, asked, agreed, answered,
        Phase.begin, accepts.speaks, Phase.leftover, accepts.answers]
      by_cases nothing : received.drop request.raw.length = [] <;> simp [nothing, Task.feeding]
    · cases answers
  · cases answers

end Accepts

theorem Phase.length_leftover_le (settings : Settings) (received : Octets) :
    (leftover settings received).length ≤ 1 := by
  unfold leftover
  split
  · split <;> simp
  · simp

/-- A request that is not answered leaves nothing to read. -/
theorem Phase.final_upgrade {settings : Settings} {request : Upgrade.Request}
    (refused : answer? settings request = none) (behind : Octets) :
    Task.Final (upgrade settings request behind) := by
  unfold answer? at refused
  unfold upgrade
  rcases asked : request.dialect? with _ | dialect
  · exact .last .finish
  rcases agreed : Upgrade.agree settings.subProtocols request.subProtocols with fault | subProtocol
  · exact .fail fault
  rcases answered : Upgrade.Response.ofDialect dialect request subProtocol with refusal | response
  · simp only [answered]
    exact .fail _
  · simp [asked, agreed, answered] at refused

theorem exists_decoder_of_answer? {settings : Settings} {request : Upgrade.Request}
    {details : Details} {response : Octets}
    (answers : answer? settings request = some (details, response)) :
    request.dialect? = some details.dialect ∧
      ∃ decoder, details.dialect.decoder? = some decoder := by
  unfold answer? at answers
  split at answers
  · rename_i dialect subProtocol asked agreed
    split at answers
    · rename_i answered
      cases answers
      refine ⟨asked, ?_⟩
      have answers : Answers (.ofRequest dialect request subProtocol) response :=
        ⟨request, subProtocol, asked, rfl, answered⟩
      rcases answers.dialect with same | same <;>
        exact ⟨_, congrArg Wire.Dialect.decoder? same⟩
    · cases answers
  · cases answers

/-- Octets received leave a session waiting for more of them, leave nothing to read, or start with a
request that is answered. -/
theorem Phase.awaitRequest_cases (settings : Settings) (received : Octets) :
    (awaitRequest settings received = [.wait (.awaiting received)] ∨
        awaitRequest settings received = [.servePolicy, .finish] ∨
        Task.Final (awaitRequest settings received)) ∧ leftover settings received = [] ∨
      ∃ request details response decoder,
        Accepts settings received request details response decoder := by
  rcases read : Upgrade.Reading.of settings.scheme received with request | _ | _ | _
  · rcases answers : answer? settings request with _ | ⟨details, response⟩
    · refine .inl ⟨.inr (.inr ?_), by simp [leftover, read, answers]⟩
      simp only [awaitRequest, read]
      exact final_upgrade answers _
    · obtain ⟨-, decoder, speaks⟩ := exists_decoder_of_answer? answers
      exact .inr ⟨request, details, response, decoder, read, answers, speaks⟩
  all_goals
    refine .inl ⟨?_, by simp [leftover, read]⟩
    simp only [awaitRequest, read]
  · exact .inr (.inl trivial)
  · split
    · exact .inr (.inr (.last .finish))
    · exact .inl rfl
  · exact .inr (.inr (.last .finish))

namespace Watched

variable {Memory : Type} {watched : Watched Memory} {settings : Settings}

/-- What a session has read fits what it has fed to its decoder and what is left to do. -/
inductive Serves (settings : Settings) (watched : Watched Memory) : Prop
  | undecided (untold : watched.moment.callbacks = []) (unfed : watched.feeds = [])
    (waits : watched.moment.activity.tasks = [.wait (.awaiting watched.reads.flatten)])
  | unserved (untold : watched.moment.callbacks = []) (unfed : watched.feeds = [])
    (left : watched.moment.activity.tasks = [.servePolicy, .finish] ∨
      Task.Final watched.moment.activity.tasks)
  | opening {request : Upgrade.Request} {details : Details} {response : Octets}
    {decoder : Wire.Decoder} {rest : List Task}
    (accepts : Accepts settings watched.reads.flatten request details response decoder)
    (untold : watched.moment.callbacks = [])
    (fed : watched.feeds.flatten = watched.reads.flatten.drop request.raw.length)
    (opens : watched.moment.activity.tasks = .complete details response :: rest)
    (hears : Hears decoder watched.feeds [] rest)
  | opened {request : Upgrade.Request} {details : Details} {response : Octets}
    {decoder : Wire.Decoder} {events : List Event}
    (accepts : Accepts settings watched.reads.flatten request details response decoder)
    (told : watched.moment.callbacks = .opened :: events)
    (fed : watched.feeds.flatten = watched.reads.flatten.drop request.raw.length)
    (known : watched.moment.connection.details = some details)
    (hears : Hears decoder watched.feeds events watched.moment.activity.tasks)

namespace Serves

theorem start (settings : Settings) (memory : Memory) : (start memory).Serves settings :=
  .undecided rfl rfl rfl

/-- A turn that leaves alone what matters. -/
theorem rests (serves : watched.Serves settings) {later : Moment Memory}
    (rests : watched.moment.Rests later) :
    (⟨later, watched.reads, watched.feeds⟩ : Watched Memory).Serves settings := by
  cases serves with
  | undecided untold unfed waits =>
    exact .undecided (rests.callbacks.trans untold) unfed (rests.tasks.trans waits)
  | unserved untold unfed left =>
    refine .unserved (rests.callbacks.trans untold) unfed ?_
    rwa [rests.tasks]
  | opening accepts untold fed opens hears =>
    exact .opening accepts (rests.callbacks.trans untold) fed (rests.tasks.trans opens) hears
  | opened accepts told fed known hears =>
    refine .opened accepts (rests.callbacks.trans told) fed (rests.details.trans known) ?_
    rwa [rests.tasks]

/-- A session that does not open its connection tells nobody. -/
theorem event_of_unserved {connection : Connection} {task : Task} {rest : List Task}
    (standing : Standing .unheard connection (task :: rest))
    (left : task :: rest = [.servePolicy, .finish] ∨ Task.Final (task :: rest)) :
    (task.move connection rest).event = none ∧ Task.Final (task.move connection rest).left := by
  rcases left with same | final
  · obtain ⟨rfl, rfl⟩ := List.cons.inj same
    exact ⟨rfl, .last .finish⟩
  · refine ⟨?_, final.move connection⟩
    cases final with
    | last last =>
      cases last with
      | close code => rfl
      | finish =>
        have silent : connection.hasOpened = false := by
          cases standing with
          | fresh early => rfl
          | refused silent left touched => exact silent
        simp [Task.move, silent]
    | fail fault =>
      cases standing with
      | fresh early => rfl
      | refused silent left touched => simp at left

/-- Only a fresh connection has a handshake to complete. -/
theorem eq_fresh_of_complete {stage : Stage} {connection : Connection} {details : Details}
    {response : Octets} {rest : List Task}
    (standing : Standing stage connection (.complete details response :: rest)) :
    connection = .fresh := by
  cases standing with
  | fresh early => rfl
  | refused silent left touched => simp at left
  | opened heard state later => cases later
  | failed heard state last => cases last

theorem moves (serves : watched.Serves settings) {stage : Stage}
    (disciplined : watched.moment.Disciplined stage) {later : Moment Memory} {task : Task}
    {rest : List Task} (moves : watched.moment.Moves later task rest) :
    (⟨later, watched.reads, watched.feeds⟩ : Watched Memory).Serves settings := by
  have standing := disciplined.standing
  rw [moves.tasks] at standing
  have callbacks := moves.callbacks
  have left := moves.left
  cases serves with
  | undecided untold unfed waits =>
    obtain ⟨rfl, rfl⟩ := List.cons.inj (moves.tasks.symm.trans waits)
    exact .unserved (by rw [callbacks, untold]; rfl) unfed (.inr (left ▸ .last .finish))
  | unserved untold unfed unserved =>
    rw [disciplined.unheard_iff.mpr untold] at standing
    rw [moves.tasks] at unserved
    obtain ⟨silent, final⟩ := event_of_unserved standing unserved
    refine .unserved ?_ unfed (.inr (left ▸ final))
    rw [callbacks, untold, silent]
    rfl
  | opening accepts untold fed opens hears =>
    obtain ⟨rfl, rfl⟩ := List.cons.inj (moves.tasks.symm.trans opens)
    have fresh := eq_fresh_of_complete standing
    rw [fresh] at callbacks left
    have known := moves.connection
    rw [fresh] at known
    refine .opened accepts (callbacks.trans (by rw [untold]; rfl)) fed ?_ ?_
    · rw [known]
      rfl
    · rw [left]
      exact hears
  | @opened request details response decoder events accepts told fed known hears =>
    rw [moves.tasks] at hears
    have still : later.connection.details = some details := by
      rw [moves.connection]
      exact Connection.details_follow known _
    refine .opened accepts ?_ fed still (left ▸ hears.move (by rw [known]; rfl))
    rw [callbacks, told]
    rfl

/-- A session that awaits a request takes up octets. -/
theorem takes_awaiting {later : Moment Memory} {octets : Octets}
    (callbacks : later.callbacks = watched.moment.callbacks)
    (tasks : later.activity.tasks =
      Phase.awaitRequest settings (watched.reads.flatten ++ octets))
    (untold : watched.moment.callbacks = []) (unfed : watched.feeds = []) :
    (⟨later, watched.reads ++ [octets],
      watched.feeds ++ Phase.leftover settings (watched.reads.flatten ++ octets)⟩ :
      Watched Memory).Serves settings := by
  have silent := callbacks.trans untold
  have joined : (watched.reads ++ [octets]).flatten = watched.reads.flatten ++ octets := by simp
  rw [← joined] at tasks ⊢
  rw [unfed, List.nil_append]
  rcases Phase.awaitRequest_cases settings (watched.reads ++ [octets]).flatten with
    ⟨left, nothing⟩ | ⟨request, details, response, decoder, accepts⟩
  · rw [← tasks] at left
    rcases left with waits | left
    · exact .undecided silent nothing waits
    · exact .unserved silent nothing left
  · exact .opening accepts silent accepts.flatten_leftover (tasks.trans accepts.awaitRequest)
      (.feeding decoder (Phase.length_leftover_le settings _))

theorem takes (serves : watched.Serves settings) {later : Moment Memory} {phase : Phase}
    {arrival : Arrival} (takes : watched.moment.Takes settings later phase arrival) :
    (⟨later, watched.reads ++ phase.reads arrival, watched.feeds ++ phase.feeds settings arrival⟩ :
      Watched Memory).Serves settings := by
  have waits := congrArg Activity.tasks takes.waits
  have tasks := takes.tasks
  have callbacks := takes.callbacks
  cases serves with
  | undecided untold unfed waiting =>
    obtain rfl : phase = .awaiting watched.reads.flatten := by
      rw [waiting] at waits
      cases phase <;> simp_all [Activity.tasks]
    have unread (nothing : Phase.reads (.awaiting watched.reads.flatten) arrival = [])
        (unfed' : Phase.feeds settings (.awaiting watched.reads.flatten) arrival = [])
        (final : Task.Final (Phase.tasks settings (.awaiting watched.reads.flatten) arrival)) :
        (⟨later, watched.reads ++ Phase.reads (.awaiting watched.reads.flatten) arrival,
          watched.feeds ++ Phase.feeds settings (.awaiting watched.reads.flatten) arrival⟩ :
          Watched Memory).Serves settings := by
      rw [nothing, unfed', List.append_nil, List.append_nil]
      exact .unserved (callbacks.trans untold) unfed (.inr (tasks ▸ final))
    cases arrival with
    | data octets => exact takes_awaiting callbacks tasks untold unfed
    | endOfStream => exact unread rfl rfl (.last .finish)
    | failure => exact unread rfl rfl (.fail .transport)
    | writerEnded => exact unread rfl rfl (.last .finish)
  | unserved untold unfed left =>
    have final : Task.Final (Activity.waiting phase : Activity Memory).tasks := by
      rw [waits] at left
      rcases left with same | final
      · cases phase <;> simp [Activity.tasks] at same
      · exact final
    obtain rfl := final.waiting
    refine .unserved (callbacks.trans untold) ?_ (.inr ?_)
    · rw [unfed]
      cases arrival <;> rfl
    · rw [tasks]
      exact .nothing
  | opening accepts untold fed opens hears =>
    rw [waits] at opens
    cases phase <;> simp [Activity.tasks] at opens
  | @opened request details response decoder events accepts told fed known hears =>
    rw [waits] at hears
    have more := hears.take settings arrival
    rw [← tasks] at more
    have still : later.connection.details = some details :=
      (congrArg Connection.details takes.connection).trans known
    have same : phase.feeds settings arrival = phase.reads arrival := by
      rcases hears.waiting with ⟨accepted, decoder, rfl, -⟩ | rfl <;> cases arrival <;> rfl
    refine .opened (by rw [List.flatten_append]; exact accepts.append _)
      (callbacks.trans told) ?_ still more
    simp only [List.flatten_append, accepts.drop_append, fed, same]

/-- Every turn keeps what fits. -/
theorem turn (serves : watched.Serves settings) {stage : Stage}
    (disciplined : watched.moment.Disciplined stage) (handler : Handler Memory) (client : Nat)
    (turn : Turn Memory) : (watched.turn handler settings client turn).Serves settings := by
  have cases := Moment.turn_cases disciplined handler settings client turn
  unfold Watched.turn
  split
  · rename_i phase arrival waits
    have takes : watched.moment.Takes settings (watched.moment.arrive settings arrival) phase
        arrival := by
      have same : watched.moment.arrive settings arrival =
          watched.moment.turnTo (.working (phase.tasks settings arrival)) := by
        simp only [Moment.arrive, waits]
      rw [same]
      exact ⟨waits, rfl, rfl, rfl⟩
    exact serves.takes takes
  · rename_i other
    rcases cases with rests | ⟨task, rest, moves⟩ | ⟨phase, arrival, rfl, takes⟩
    · exact serves.rests rests
    · exact serves.moves disciplined moves
    · exact absurd rfl (other phase arrival takes.waits)

end Serves

/-- In every run, what the session has read fits what it has fed to its decoder, what its handler
has heard, and what is left to do. -/
theorem serves_run (handler : Handler Memory) (settings : Settings) (client : Nat) (memory : Memory)
    (turns : List (Turn Memory)) :
    ∃ stage, ((start memory).run handler settings client turns).moment.Disciplined stage ∧
      ((start memory).run handler settings client turns).Serves settings := by
  have kept (watched : Watched Memory) (stage : Stage)
      (disciplined : watched.moment.Disciplined stage) (serves : watched.Serves settings) :
      ∃ stage, (watched.run handler settings client turns).moment.Disciplined stage ∧
        (watched.run handler settings client turns).Serves settings := by
    induction turns generalizing watched stage with
    | nil => exact ⟨stage, disciplined, serves⟩
    | cons next rest inductionHypothesis =>
      obtain ⟨middle, later⟩ := disciplined.turn handler settings client next
      rw [← moment_turn] at later
      exact inductionHypothesis _ middle later (serves.turn disciplined handler client next)
  exact kept _ .unheard (Moment.disciplined_start memory) (Serves.start settings memory)

/-- The frame of a client that says something. -/
def greetingFrame : Octets :=
  Wire.Frame.encodeMasked .text [104, 105] ⟨1, 2, 3, 4⟩

end Watched

end CashHerald.Session
