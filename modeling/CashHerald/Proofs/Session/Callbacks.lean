import Mathlib.Data.List.Induction
import CashHerald.Proofs.Session.Interleaving

/-!
What a handler hears of one connection. An automaton reads the events in the order in which the
handler is told of them; what a session has left to do always fits what its handler has heard. Main
statement: in every run the handler hears nothing, or that the connection has opened, then messages,
then at most one fault, and last that the connection has closed.
-/

namespace CashHerald.Session

/-- The events that bring something from the peer of an open connection. -/
def Event.isMessage : Event → Bool
  | .text _ => true
  | .binary _ => true
  | .ping _ => true
  | .pong _ => true
  | _ => false

/-- What a handler has heard of a connection. -/
inductive Stage where
  | unheard
  | opened
  | failed
  | ended
  deriving DecidableEq

namespace Stage

/-- What a handler has heard when it is told of one more event. -/
def hear? : Stage → Event → Option Stage
  | .unheard, .opened => some .opened
  | .opened, .failed _ => some .failed
  | .opened, .closed => some .ended
  | .failed, .closed => some .ended
  | .opened, event => if event.isMessage then some .opened else none
  | _, _ => none

/-- What a handler has heard when it is told of some more events. -/
def hearAll? (stage : Stage) (events : List Event) : Option Stage :=
  events.foldlM hear? stage

theorem hear?_message {event : Event} (message : event.isMessage = true) :
    hear? .opened event = some .opened := by
  cases event <;> simp_all [hear?, Event.isMessage]

theorem hear?_ne_unheard (stage : Stage) (event : Event) : stage.hear? event ≠ some .unheard := by
  cases stage <;> cases event <;> simp [hear?, Event.isMessage]

@[simp] theorem hearAll?_nil (stage : Stage) : stage.hearAll? [] = some stage := rfl

theorem hearAll?_cons (stage : Stage) (event : Event) (rest : List Event) :
    stage.hearAll? (event :: rest) = (stage.hear? event).bind (hearAll? · rest) := by
  simp [hearAll?, List.foldlM_cons]

theorem hearAll?_append (stage : Stage) (front back : List Event) :
    stage.hearAll? (front ++ back) = (stage.hearAll? front).bind (hearAll? · back) := by
  simp [hearAll?, List.foldlM_append]

/-- Behind the end of a connection nothing is heard. -/
theorem eq_nil_of_hearAll?_ended {events : List Event} {stage : Stage}
    (heard : hearAll? .ended events = some stage) : events = [] ∧ stage = .ended := by
  cases events with
  | nil => simp_all
  | cons event rest => simp [hearAll?_cons, hear?] at heard

/-- Behind a fault only the end is heard. -/
theorem eq_last_of_hearAll?_failed {events : List Event} {stage : Stage}
    (heard : hearAll? .failed events = some stage) :
    events = [] ∧ stage = .failed ∨ events = [.closed] ∧ stage = .ended := by
  cases events with
  | nil => simp_all
  | cons event rest =>
    rw [hearAll?_cons] at heard
    cases event with
    | closed =>
      obtain ⟨rfl, rfl⟩ := eq_nil_of_hearAll?_ended heard
      exact .inr ⟨rfl, rfl⟩
    | _ => simp [hear?] at heard

/-- What is heard of an open connection: messages, at most one fault, and the end. -/
theorem exists_parts_of_hearAll?_opened {events : List Event} {stage : Stage}
    (heard : hearAll? .opened events = some stage) :
    ∃ messages failures last, events = messages ++ failures ++ last ∧
      (∀ event ∈ messages, event.isMessage = true) ∧
      (failures = [] ∨ ∃ fault, failures = [.failed fault]) ∧
      (last = [] ∧ stage ≠ .ended ∨ last = [.closed] ∧ stage = .ended) := by
  induction events with
  | nil =>
    obtain rfl : stage = .opened := by simpa using heard.symm
    exact ⟨[], [], [], by simp⟩
  | cons event rest inductionHypothesis =>
    rw [hearAll?_cons] at heard
    by_cases message : event.isMessage = true
    · rw [hear?_message message] at heard
      obtain ⟨messages, failures, last, rfl, all, few, ends⟩ := inductionHypothesis heard
      exact ⟨event :: messages, failures, last, rfl, by simp_all, few, ends⟩
    · cases event with
      | failed fault =>
        refine ⟨[], [.failed fault], rest, rfl, by simp, .inr ⟨fault, rfl⟩, ?_⟩
        obtain ⟨rfl, rfl⟩ | ⟨rfl, rfl⟩ := eq_last_of_hearAll?_failed heard <;> simp
      | closed =>
        obtain ⟨rfl, rfl⟩ := eq_nil_of_hearAll?_ended heard
        exact ⟨[], [], [.closed], by simp⟩
      | opened => simp [hear?, Event.isMessage] at heard
      | _ => simp [Event.isMessage] at message

/-- What is heard of a connection starts with its opening. -/
theorem eq_cons_of_hearAll?_unheard {event : Event} {rest : List Event} {stage : Stage}
    (heard : hearAll? .unheard (event :: rest) = some stage) :
    event = .opened ∧ hearAll? .opened rest = some stage := by
  rw [hearAll?_cons] at heard
  cases event with
  | opened => exact ⟨rfl, heard⟩
  | _ => simp [hear?] at heard

theorem hearAll?_eq_unheard_iff (events : List Event) :
    hearAll? .unheard events = some .unheard ↔ events = [] := by
  refine ⟨fun heard => ?_, by rintro rfl; rfl⟩
  induction events using List.reverseRecOn with
  | nil => rfl
  | append_singleton front last _ =>
    rw [hearAll?_append] at heard
    obtain ⟨middle, _, final⟩ := Option.bind_eq_some_iff.mp heard
    rw [hearAll?_cons] at final
    exact absurd (by simpa using final) (hear?_ne_unheard middle last)

end Stage

/-- The response answers the request that fixed the details. -/
def Answers (details : Details) (response : Octets) : Prop :=
  ∃ request subProtocol, request.dialect? = some details.dialect ∧
    details = .ofRequest details.dialect request subProtocol ∧
    Upgrade.Response.ofDialect details.dialect request subProtocol = .ok response

theorem Answers.dialect {details : Details} {response : Octets}
    (answers : Answers details response) :
    details.dialect = .hybi13 ∨ details.dialect = .draft76 := by
  obtain ⟨request, subProtocol, asked, -, -⟩ := answers
  unfold Upgrade.Request.dialect? at asked
  split at asked
  · cases asked
  · split at asked
    · exact .inl (Option.some.inj asked).symm
    · split at asked
      · exact .inr (Option.some.inj asked).symm
      · cases asked

namespace Task

/-- The last things that are done for a connection. -/
inductive Last : List Task → Prop
  | close (code : UInt16) : Last [.close code, .finish]
  | finish : Last [.finish]

/-- What may be left to do on a connection that has opened. -/
inductive Later : List Task → Prop
  | deliver (message : Wire.Message) {rest : List Task} (later : Later rest) :
    Later (.deliver message :: rest)
  | wait (decoder : Wire.Decoder) : Later [.wait (.speaking decoder)]
  | fail (fault : Wire.Fault) : Later (failing fault)
  | finish : Later [.finish]

/-- What may be left to do on a connection of which nothing is known. -/
inductive Early : List Task → Prop
  | wait (received : Octets) : Early [.wait (.awaiting received)]
  | servePolicy : Early [.servePolicy, .finish]
  | complete {details : Details} {response : Octets} {rest : List Task}
    (answers : Answers details response) (later : Later rest) :
    Early (.complete details response :: rest)
  | fail (fault : Wire.Fault) : Early (failing fault)
  | last {tasks : List Task} (last : Last tasks) : Early tasks

end Task

namespace Phase

theorem later_receive (decoder : Wire.Decoder) (octets : Octets) :
    Task.Later (receive decoder octets) := by
  unfold receive
  rcases decoder.feed octets with ⟨violation | messages, next⟩
  · exact .fail _
  · simp only
    induction messages with
    | nil => exact .wait next
    | cons message rest inductionHypothesis => exact .deliver message inductionHypothesis

theorem early_begin {details : Details} {response : Octets} (answers : Answers details response)
    (behind : Octets) : Task.Early (begin details response behind) := by
  refine .complete answers ?_
  split
  · exact .finish
  · split
    · exact .wait _
    · exact later_receive _ _

theorem early_upgrade (settings : Settings) (request : Upgrade.Request) (behind : Octets) :
    Task.Early (upgrade settings request behind) := by
  unfold upgrade
  split
  · exact .last .finish
  · rename_i dialect asked
    split
    · exact .fail _
    · rename_i subProtocol agreed
      split
      · exact .fail _
      · rename_i response answered
        exact early_begin ⟨request, subProtocol, asked, rfl, answered⟩ behind

theorem early_awaitRequest (settings : Settings) (received : Octets) :
    Task.Early (awaitRequest settings received) := by
  unfold awaitRequest
  split
  · split
    · exact .last .finish
    · exact .wait received
  · exact .last .finish
  · exact .servePolicy
  · exact early_upgrade _ _ _

theorem early_tasks (settings : Settings) (received : Octets) (arrival : Arrival) :
    Task.Early (tasks settings (.awaiting received) arrival) := by
  cases arrival with
  | data octets => exact early_awaitRequest _ _
  | endOfStream => exact .last .finish
  | failure => exact .fail _
  | writerEnded => exact .last .finish

theorem later_tasks (settings : Settings) (decoder : Wire.Decoder) (arrival : Arrival) :
    Task.Later (tasks settings (.speaking decoder) arrival) := by
  cases arrival with
  | data octets => exact later_receive _ _
  | endOfStream => exact .finish
  | failure => exact .fail _
  | writerEnded => exact .finish

end Phase

/-- What is left to do on a connection fits what its handler has heard of it. -/
inductive Standing : Stage → Connection → List Task → Prop
  | fresh {tasks : List Task} (early : Task.Early tasks) : Standing .unheard .fresh tasks
  | refused {connection : Connection} {tasks : List Task} (silent : connection.hasOpened = false)
    (left : tasks = [.finish] ∨ tasks = []) (touched : connection.state ≠ .connecting) :
    Standing .unheard connection tasks
  | opened {connection : Connection} {tasks : List Task} (heard : connection.hasOpened = true)
    (state : connection.state = .opened ∨ connection.state = .closing) (later : Task.Later tasks) :
    Standing .opened connection tasks
  | failed {connection : Connection} {tasks : List Task} (heard : connection.hasOpened = true)
    (state : connection.state = .opened ∨ connection.state = .closing) (last : Task.Last tasks) :
    Standing .failed connection tasks
  | ended {connection : Connection} (state : connection.state = .closed) :
    Standing .ended connection []

namespace Standing

variable {stage : Stage} {connection : Connection} {tasks : List Task}

theorem ne_fresh (standing : Standing stage connection tasks) (heard : stage ≠ .unheard) :
    connection ≠ .fresh := by
  rintro rfl
  cases standing with
  | fresh => exact heard rfl
  | refused => exact heard rfl
  | opened opened => cases opened
  | failed opened => cases opened
  | ended state => cases state

theorem ended_of_done (standing : Standing stage connection []) (heard : stage ≠ .unheard) :
    stage = .ended := by
  cases standing with
  | fresh => exact absurd rfl heard
  | refused => exact absurd rfl heard
  | opened opened state later => cases later
  | failed opened state last => cases last
  | ended => rfl

/-- A connection that is no longer fresh may start to close without any change to what fits. -/
theorem congr (standing : Standing stage connection tasks) (touched : connection ≠ .fresh)
    {changed : Connection} (details : changed.details = connection.details)
    (state : changed.state = connection.state ∨
      connection.isAvailable = true ∧ changed.state = .closing) :
    Standing stage changed tasks := by
  have same : changed.hasOpened = connection.hasOpened := by
    simp only [Connection.hasOpened, details]
  -- A connection that is available here is open, so it is left open or starts to close.
  cases standing with
  | fresh => exact absurd rfl touched
  | refused silent left moved => exact .refused (same.trans silent) left (by grind)
  | opened heard known later => exact .opened (same.trans heard) (by grind) later
  | failed heard known last => exact .failed (same.trans heard) (by grind) last
  | ended closed => exact .ended (by grind [Connection.isAvailable])

end Standing

/-- A note says that a handshake has completed in a dialect that has messages. -/
def Note.completes : Note → Prop
  | .called (.complete details _) _ (.ok ()) =>
    details.dialect = .hybi13 ∨ details.dialect = .draft76
  | _ => False

/-- A move leads from what a handler has heard to what it has heard later. -/
structure Move.Fits (connection : Connection) (move : Move) (stage later : Stage) : Prop where
  heard : stage.hearAll? move.event.toList = some later
  standing : Standing later (connection.follow move) move.left
  message : ∀ event ∈ move.event, event.isMessage = true →
    (connection.follow move).state = .opened
  completed : stage ≠ .unheard ∨ (∃ note ∈ move.notes connection, note.completes) ↔
    later ≠ .unheard

namespace Move.Fits

variable {connection : Connection} {move : Move} {stage later : Stage}

theorem not_completes (plain : ∀ details response, move.call ≠ some (.complete details response)) :
    ¬ ∃ note ∈ move.notes connection, note.completes := by
  obtain ⟨call, event, left⟩ := move
  rcases call with _ | call
  · simp [notes]
  · cases call with
    | complete details response => exact absurd rfl (plain details response)
    | _ => simp [notes, Note.completes]

/-- A move without an event. -/
theorem untold (silent : move.event = none)
    (plain : ∀ details response, move.call ≠ some (.complete details response))
    (standing : Standing stage (connection.follow move) move.left) :
    move.Fits connection stage stage where
  heard := by simp [silent]
  standing := standing
  message := by simp [silent]
  completed := by simp [not_completes plain]

/-- A move with an event of a connection of which the handler has heard. -/
theorem told {event : Event} (tells : move.event = some event)
    (hears : stage.hear? event = some later) (known : stage ≠ .unheard)
    (standing : Standing later (connection.follow move) move.left)
    (state : event.isMessage = true → (connection.follow move).state = .opened) :
    move.Fits connection stage later where
  heard := by simp [tells, Stage.hearAll?_cons, hears]
  standing := standing
  message := by simpa [tells] using state
  completed := by
    have : later ≠ .unheard := by
      rintro rfl
      exact Stage.hear?_ne_unheard _ _ hears
    simp [known, this]

end Move.Fits

namespace Task

/-- A fresh connection that completes its handshake opens. -/
theorem fits_complete {details : Details} {response : Octets} {rest : List Task}
    (dialect : details.dialect = .hybi13 ∨ details.dialect = .draft76) (later : Later rest) :
    (move .fresh rest (.complete details response)).Fits .fresh .unheard .opened where
  heard := rfl
  standing := by
    refine .opened ?_ (.inl rfl) later
    change (some details).any (·.dialect ≠ .flashPolicy) = true
    rcases dialect with same | same <;> simp [same]
  message := by rintro event ⟨⟩ ⟨⟩
  completed := by
    refine iff_of_true (.inr ⟨_, List.mem_singleton.mpr rfl, ?_⟩) (by decide)
    exact dialect

/-- What an early task of a fresh connection leads to. -/
theorem Early.exists_fits {task : Task} {rest : List Task} (early : Early (task :: rest))
    (works : task.rest? .fresh = none) :
    ∃ later, (task.move .fresh rest).Fits .fresh .unheard later := by
  cases early with
  | wait received => cases works
  | servePolicy => exact ⟨_, .untold rfl nofun (.refused rfl (.inl rfl) nofun)⟩
  | complete answers later => exact ⟨_, fits_complete answers.dialect later⟩
  | fail fault => exact ⟨_, .untold rfl nofun (.fresh (.last (.close _)))⟩
  | last last =>
    cases last with
    | close code => exact ⟨_, .untold rfl nofun (.refused rfl (.inl rfl) nofun)⟩
    | finish => exact ⟨_, .untold rfl nofun (.refused rfl (.inr rfl) nofun)⟩

section Open

variable {connection : Connection} {task : Task} {rest : List Task}

theorem state_close_of_open (state : connection.state = .opened ∨ connection.state = .closing)
    (code : UInt16) : (connection.close code).state = .closing := by
  rcases state with same | same <;> simp [Connection.state_close, Connection.isAvailable, same]

theorem event_finish (heard : connection.hasOpened = true)
    (state : connection.state = .opened ∨ connection.state = .closing) :
    (move connection rest .finish).event = some .closed := by
  have : connection.state ≠ .closed := by grind
  simp [move, this, heard]

theorem fits_deliver (message : Wire.Message) (later : Later rest)
    (heard : connection.hasOpened = true)
    (state : connection.state = .opened ∨ connection.state = .closing) :
    (move connection rest (.deliver message)).Fits connection .opened .opened := by
  -- The handler may have closed the connection in its reaction to an earlier message of the batch.
  by_cases available : connection.isAvailable = true
  · have opened : connection.state = .opened := by
      rcases state with same | same
      · exact same
      · simp [Connection.isAvailable, same] at available
    have same : move connection rest (.deliver message) = delivery rest message := if_pos available
    rw [same]
    cases message with
    | close code =>
      refine .untold rfl (by simp [delivery]) (.opened ?_ (.inr ?_) .finish)
      · exact (Connection.hasOpened_close _ _).trans heard
      · exact state_close_of_open state _
    | _ => exact .told rfl rfl (by decide) (.opened heard state later) fun _ => opened
  · have same : move connection rest (.deliver message) = ⟨none, none, [.finish]⟩ :=
      if_neg available
    rw [same]
    exact .untold rfl (by simp) (.opened heard state .finish)

/-- What a task of an open connection leads to. -/
theorem Later.exists_fits (later : Later (task :: rest)) (heard : connection.hasOpened = true)
    (state : connection.state = .opened ∨ connection.state = .closing) :
    ∃ stage, (task.move connection rest).Fits connection .opened stage := by
  cases later with
  | deliver message later => exact ⟨_, fits_deliver message later heard state⟩
  | wait decoder => exact ⟨_, .untold rfl nofun (.opened heard state .finish)⟩
  | fail fault =>
    have known : connection.details.isSome = true := Connection.isSome_details_of_hasOpened heard
    exact ⟨_, .told (if_pos known) rfl nofun (.failed heard state (.close _)) nofun⟩
  | finish => exact ⟨_, .told (event_finish heard state) rfl nofun (.ended rfl) nofun⟩

/-- What one of the last tasks of a connection leads to. -/
theorem Last.exists_fits (last : Last (task :: rest)) (heard : connection.hasOpened = true)
    (state : connection.state = .opened ∨ connection.state = .closing) :
    ∃ stage, (task.move connection rest).Fits connection .failed stage := by
  cases last with
  | close code =>
    refine ⟨_, .untold rfl nofun (.failed ?_ (.inr ?_) .finish)⟩
    · exact (Connection.hasOpened_close _ _).trans heard
    · exact state_close_of_open state code
  | finish => exact ⟨_, .told (event_finish heard state) rfl nofun (.ended rfl) nofun⟩

end Open

end Task

theorem Task.eq_wait_of_rest?_eq_some {connection : Connection} {task : Task} {phase : Phase}
    (rests : task.rest? connection = some phase) : task = .wait phase := by
  cases task with
  | wait waits =>
    simp only [rest?] at rests
    split at rests <;> simp_all
  | _ => cases rests

/-- A session waits only with nothing else to do. -/
theorem Standing.wait {stage : Stage} {connection : Connection} {phase : Phase} {rest : List Task}
    (standing : Standing stage connection (.wait phase :: rest)) : phase ≠ .ended ∧ rest = [] := by
  cases standing with
  | fresh early =>
    cases early with
    | wait received => exact ⟨nofun, rfl⟩
    | last last => cases last
  | refused silent left touched => simp at left
  | opened heard state later =>
    cases later with
    | wait decoder => exact ⟨nofun, rfl⟩
  | failed heard state last => cases last

/-- Every task leads on from what a handler has heard. -/
theorem Standing.exists_fits {stage : Stage} {connection : Connection} {task : Task}
    {rest : List Task} (standing : Standing stage connection (task :: rest))
    (works : task.rest? connection = none) :
    ∃ later, (task.move connection rest).Fits connection stage later := by
  cases standing with
  | fresh early => exact early.exists_fits works
  | refused silent left touched =>
    obtain ⟨rfl, rfl⟩ : task = .finish ∧ rest = [] := by simpa using left
    refine ⟨_, .untold ?_ nofun (.refused ?_ (.inr rfl) nofun)⟩
    · simp [Task.move, silent]
    · exact (Connection.hasOpened_finish _).trans silent
  | opened heard state later => exact later.exists_fits heard state
  | failed heard state last => exact last.exists_fits heard state

/-- The tasks of an activity; one that waits has to wait. -/
def Activity.tasks {Memory : Type} : Activity Memory → List Task
  | .waiting .ended => []
  | .waiting phase => [.wait phase]
  | .working tasks => tasks
  | .reacting _ tasks => tasks

theorem Activity.tasks_waiting {Memory : Type} {phase : Phase} (goes : phase ≠ .ended) :
    (Activity.waiting phase : Activity Memory).tasks = [.wait phase] := by
  cases phase with
  | ended => exact absurd rfl goes
  | _ => rfl

/-- An arrival leaves a session that waits with tasks that fit. -/
theorem Standing.arrive {Memory : Type} {stage : Stage} {connection : Connection} {phase : Phase}
    (standing : Standing stage connection (Activity.waiting phase : Activity Memory).tasks)
    (settings : Settings) (arrival : Arrival) :
    Standing stage connection (phase.tasks settings arrival) := by
  cases phase with
  | ended => exact standing
  | awaiting received =>
    cases standing with
    | fresh early => exact .fresh (Phase.early_tasks settings received arrival)
    | refused silent left touched => simp [Activity.tasks] at left
    | opened heard state later => cases later
    | failed heard state last => cases last
  | speaking decoder =>
    cases standing with
    | fresh early =>
      cases early with
      | last last => cases last
    | refused silent left touched => simp [Activity.tasks] at left
    | opened heard state later =>
      exact .opened heard state (Phase.later_tasks settings decoder arrival)
    | failed heard state last => cases last

namespace Moment

variable {Memory : Type}

/-- What the handler has heard, what is left to do, and what has been noted fit together. -/
structure Disciplined (moment : Moment Memory) (stage : Stage) : Prop where
  heard : Stage.hearAll? .unheard moment.callbacks = some stage
  standing : Standing stage moment.connection moment.activity.tasks
  reacting : ∀ reaction tasks, moment.activity = .reacting reaction tasks → stage ≠ .unheard
  completed : stage ≠ .unheard ↔ ∃ note ∈ moment.journal, note.completes
  message : ∀ event state, .told event state ∈ moment.journal → event.isMessage = true →
    state = .opened

theorem disciplined_start (memory : Memory) : (start memory).Disciplined .unheard where
  heard := rfl
  standing := .fresh (.wait [])
  reacting := nofun
  completed := by simp [start]
  message := nofun

section Follow

variable (handler : Handler Memory) (client : Nat) (moment : Moment Memory) (move : Move)

theorem connection_follow :
    (moment.follow handler client move).connection = moment.connection.follow move := by
  obtain ⟨call, event, left⟩ := move
  cases event <;> rfl

theorem tasks_follow : (moment.follow handler client move).activity.tasks = move.left := by
  obtain ⟨call, event, left⟩ := move
  cases event <;> rfl

theorem journal_follow :
    (moment.follow handler client move).journal = moment.journal ++ move.notes moment.connection ++
      move.event.toList.map fun event => .told event (moment.connection.follow move).state := by
  obtain ⟨call, event, left⟩ := move
  cases event with
  | none => exact (List.append_nil _).symm
  | some event => rfl

theorem callbacks_follow :
    (moment.follow handler client move).callbacks = moment.callbacks ++ move.event.toList := by
  obtain ⟨call, event, left⟩ := move
  have silent : (Move.notes moment.connection ⟨call, event, left⟩).filterMap Note.event? = [] := by
    cases call <;> rfl
  rw [callbacks, journal_follow, List.filterMap_append, List.filterMap_append, silent,
    List.append_nil, callbacks]
  cases event <;> rfl

variable {handler client moment move}

theorem exists_event_of_follow {reaction : Reaction Memory} {tasks : List Task}
    (reacts : (moment.follow handler client move).activity = .reacting reaction tasks) :
    ∃ event, move.event = some event := by
  obtain ⟨call, event, left⟩ := move
  cases event with
  | none => cases reacts
  | some event => exact ⟨event, rfl⟩

end Follow

namespace Disciplined

variable {moment : Moment Memory} {stage : Stage}

/-- What happens behind the back of the handler, with notes that complete no handshake. -/
theorem untold (disciplined : moment.Disciplined stage) {later : Moment Memory} (notes : List Note)
    (journal : later.journal = moment.journal ++ notes)
    (quiet : ∀ note ∈ notes, note.event? = none ∧ ¬ note.completes)
    (standing : Standing stage later.connection later.activity.tasks)
    (reacting : ∀ reaction tasks, later.activity = .reacting reaction tasks → stage ≠ .unheard) :
    later.Disciplined stage where
  heard := by
    have silent : notes.filterMap Note.event? = [] := by
      simpa [List.filterMap_eq_nil_iff] using fun note mem => (quiet note mem).1
    have heard := disciplined.heard
    rwa [callbacks, journal, List.filterMap_append, silent, List.append_nil]
  standing := standing
  reacting := reacting
  completed := by
    rw [disciplined.completed, journal]
    constructor
    · rintro ⟨note, mem, completes⟩
      exact ⟨note, List.mem_append_left _ mem, completes⟩
    · rintro ⟨note, mem, completes⟩
      rcases List.mem_append.mp mem with mem | mem
      · exact ⟨note, mem, completes⟩
      · exact absurd completes (quiet note mem).2
  message := by
    intro event state mem
    rw [journal] at mem
    rcases List.mem_append.mp mem with mem | mem
    · exact disciplined.message event state mem
    · cases (quiet _ mem).1

theorem unheard_iff (disciplined : moment.Disciplined stage) :
    stage = .unheard ↔ moment.callbacks = [] := by
  rw [← Stage.hearAll?_eq_unheard_iff, disciplined.heard, Option.some_inj]

theorem ne_fresh (disciplined : moment.Disciplined stage) (known : stage ≠ .unheard) :
    moment.connection ≠ .fresh :=
  disciplined.standing.ne_fresh known

/-- A payload is sent on a connection of which the handler has heard. -/
theorem send (disciplined : moment.Disciplined stage) (known : stage ≠ .unheard)
    (opcode : Wire.Opcode) (payload : Octets) : (moment.send opcode payload).Disciplined stage := by
  refine disciplined.untold _ rfl ?_ ?_ disciplined.reacting
  · simp [Note.event?, Note.completes]
  · refine disciplined.standing.congr (disciplined.ne_fresh known) ?_ (.inl ?_)
    · exact Connection.details_send _ _ _
    · exact Connection.state_send _ _ _

/-- A connection of which the handler has heard is closed. -/
theorem close (disciplined : moment.Disciplined stage) (known : stage ≠ .unheard) (code : UInt16) :
    (moment.call (.close code)).Disciplined stage := by
  refine disciplined.untold _ rfl ?_ ?_ disciplined.reacting
  · simp [Note.event?, Note.completes]
  · refine disciplined.standing.congr (disciplined.ne_fresh known) ?_ ?_
    · exact Connection.details_close _ _
    · have same := Connection.state_close moment.connection code
      by_cases available : moment.connection.isAvailable = true
      · exact .inr ⟨available, same.trans (if_pos available)⟩
      · exact .inl (same.trans (if_neg available))

/-- The session turns to something with the same tasks. -/
theorem turnTo (disciplined : moment.Disciplined stage) {activity : Activity Memory}
    (same : moment.activity.tasks = activity.tasks)
    (reacting : ∀ reaction tasks, activity = .reacting reaction tasks → stage ≠ .unheard) :
    (moment.turnTo activity).Disciplined stage := by
  refine disciplined.untold [] (List.append_nil _).symm (by simp) ?_ reacting
  have standing := disciplined.standing
  rwa [same] at standing

theorem remember (disciplined : moment.Disciplined stage) (memory : Memory) :
    (⟨moment.connection, memory, moment.activity, moment.written, moment.journal⟩ :
      Moment Memory).Disciplined stage :=
  disciplined.untold [] (List.append_nil _).symm (by simp) disciplined.standing disciplined.reacting

/-- One thing of a reaction. -/
theorem react (disciplined : moment.Disciplined stage) {reaction : Reaction Memory}
    {tasks : List Task} (reacts : moment.activity = .reacting reaction tasks) :
    (moment.react tasks reaction).Disciplined stage := by
  have known := disciplined.reacting _ _ reacts
  have same : moment.activity.tasks = tasks := by rw [reacts]; rfl
  cases reaction with
  | done memory => exact (disciplined.remember memory).turnTo same nofun
  | inspect next => exact disciplined.turnTo same fun _ _ _ => known
  | send opcode payload next =>
    exact (disciplined.send known opcode payload).turnTo same fun _ _ _ => known
  | close code next => exact (disciplined.close known code).turnTo same fun _ _ _ => known

/-- The session follows a move that leads on from what the handler has heard. -/
theorem follow (disciplined : moment.Disciplined stage) {move : Move} {later : Stage}
    (fits : move.Fits moment.connection stage later) (handler : Handler Memory) (client : Nat) :
    (moment.follow handler client move).Disciplined later where
  heard := by
    rw [callbacks_follow, Stage.hearAll?_append, disciplined.heard]
    exact fits.heard
  standing := by
    rw [connection_follow, tasks_follow]
    exact fits.standing
  reacting := by
    -- Nothing leads back to a handler that has heard nothing.
    intro reaction tasks reacts
    obtain ⟨event, tells⟩ := exists_event_of_follow reacts
    have heard := fits.heard
    rw [tells] at heard
    rintro rfl
    simp [Stage.hearAll?_cons, Stage.hear?_ne_unheard] at heard
  completed := by
    rw [← fits.completed, disciplined.completed, journal_follow]
    constructor
    · rintro (⟨note, mem, completes⟩ | ⟨note, mem, completes⟩)
      · exact ⟨note, List.mem_append_left _ (List.mem_append_left _ mem), completes⟩
      · exact ⟨note, List.mem_append_left _ (List.mem_append_right _ mem), completes⟩
    · rintro ⟨note, mem, completes⟩
      obtain (mem | mem) | mem := by simpa only [List.mem_append] using mem
      · exact .inl ⟨note, mem, completes⟩
      · exact .inr ⟨note, mem, completes⟩
      · obtain ⟨event, -, rfl⟩ := List.mem_map.mp mem
        cases completes
  message := by
    intro event state mem
    rw [journal_follow] at mem
    obtain (mem | mem) | mem := by simpa only [List.mem_append] using mem
    · exact disciplined.message event state mem
    · obtain ⟨call, told, left⟩ := move
      cases call <;> simp [Move.notes] at mem
    · obtain ⟨told, tells, same⟩ := List.mem_map.mp mem
      cases same
      exact fits.message event (by simpa using tells)

/-- The session takes up a task. -/
theorem take (disciplined : moment.Disciplined stage) {task : Task} {rest : List Task}
    (works : moment.activity = .working (task :: rest)) (handler : Handler Memory) (client : Nat) :
    ∃ later, (moment.take handler client task rest).Disciplined later := by
  have standing := disciplined.standing
  rw [works] at standing
  unfold Moment.take
  split
  · -- A task that waits is the last one, so the session keeps what it has to do.
    rename_i phase rests
    obtain rfl : task = .wait phase := Task.eq_wait_of_rest?_eq_some rests
    obtain ⟨goes, rfl⟩ := standing.wait
    refine ⟨stage, disciplined.turnTo ?_ (by simp)⟩
    rw [works, Activity.tasks_waiting goes]
    rfl
  · rename_i goes
    obtain ⟨later, fits⟩ := standing.exists_fits goes
    have took : (moment.note (.took task moment.connection.state)).Disciplined stage :=
      disciplined.untold _ rfl (by simp [Note.event?, Note.completes]) disciplined.standing
        disciplined.reacting
    exact ⟨later, took.follow fits handler client⟩

/-- The next thing that the session does. -/
theorem proceed (disciplined : moment.Disciplined stage) (handler : Handler Memory) (client : Nat) :
    ∃ later, (moment.proceed handler client).Disciplined later := by
  unfold Moment.proceed
  split
  · exact ⟨stage, disciplined⟩
  · rename_i works
    exact ⟨stage, disciplined.turnTo (by rw [works]; rfl) nofun⟩
  · rename_i works
    exact disciplined.take works handler client
  · rename_i reacts
    exact ⟨stage, disciplined.react reacts⟩

theorem arrive (disciplined : moment.Disciplined stage) (settings : Settings) (arrival : Arrival) :
    (moment.arrive settings arrival).Disciplined stage := by
  unfold Moment.arrive
  split
  · rename_i phase waits
    have standing := disciplined.standing
    rw [waits] at standing
    exact disciplined.untold [] (List.append_nil _).symm (by simp)
      (standing.arrive settings arrival) nofun
  · exact disciplined

/-- The writer changes the queue of a connection and nothing that has to fit. -/
theorem writer (disciplined : moment.Disciplined stage) {item : Outbound} {rest : List Outbound}
    (queued : moment.connection.queue = item :: rest) {connection : Connection}
    (details : connection.details = moment.connection.details)
    (state : connection.state = moment.connection.state) (written : Octets) :
    (⟨connection, moment.memory, moment.activity, written, moment.journal⟩ :
      Moment Memory).Disciplined stage := by
  refine disciplined.untold [] (List.append_nil _).symm (by simp) ?_ disciplined.reacting
  exact disciplined.standing.congr (Connection.ne_fresh_of_queue queued) details (.inl state)

theorem write (disciplined : moment.Disciplined stage) : moment.write.Disciplined stage := by
  unfold Moment.write
  split
  · exact disciplined
  · rename_i queued
    refine disciplined.writer queued ?_ ?_ _ <;> rfl
  · rename_i queued
    refine disciplined.writer queued ?_ ?_ _ <;> rfl

theorem failWrite (disciplined : moment.Disciplined stage) (count : Nat) :
    (moment.failWrite count).Disciplined stage := by
  unfold Moment.failWrite
  split
  · exact disciplined
  · rename_i queued
    refine disciplined.writer queued ?_ ?_ _ <;> rfl

/-- Every turn keeps the discipline. -/
theorem turn (disciplined : moment.Disciplined stage) (handler : Handler Memory)
    (settings : Settings) (client : Nat) (turn : Turn Memory) :
    ∃ later, (moment.turn handler settings client turn).Disciplined later := by
  cases turn with
  | arrive arrival => exact ⟨stage, disciplined.arrive settings arrival⟩
  | proceed => exact disciplined.proceed handler client
  | send opcode payload =>
    refine ⟨stage, ?_⟩
    simp only [Moment.turn]
    split
    · exact disciplined
    · rename_i told
      exact disciplined.send (mt disciplined.unheard_iff.mp told) opcode payload
  | close code =>
    refine ⟨stage, ?_⟩
    simp only [Moment.turn]
    split
    · exact disciplined
    · rename_i told
      exact disciplined.close (mt disciplined.unheard_iff.mp told) code
  | remember memory => exact ⟨stage, disciplined.remember memory⟩
  | write => exact ⟨stage, disciplined.write⟩
  | failWrite count => exact ⟨stage, disciplined.failWrite count⟩

/-- Every run keeps the discipline. -/
theorem run (disciplined : moment.Disciplined stage) (handler : Handler Memory)
    (settings : Settings) (client : Nat) (turns : List (Turn Memory)) :
    ∃ later, (moment.run handler settings client turns).Disciplined later := by
  induction turns generalizing moment stage with
  | nil => exact ⟨stage, disciplined⟩
  | cons next rest inductionHypothesis =>
    obtain ⟨middle, kept⟩ := disciplined.turn handler settings client next
    exact inductionHypothesis kept

end Disciplined

/-- In every run of a connection, whatever its peer, its handler, and everyone else who knows of it
do, the handler hears nothing, or that the connection has opened, then messages, then at most one
fault, and last, once the session has ended, that the connection has closed. It hears something
exactly if a handshake has completed in a dialect that has messages, and it hears of messages only
while the connection is open. Every run can be brought to its end. -/
theorem callbacks_in_order (handler : Handler Memory) (settings : Settings) (client : Nat)
    (memory : Memory) (turns : List (Turn Memory)) :
    let moment := (start memory).run handler settings client turns
    (moment.callbacks = [] ∨
      ∃ messages failures last, moment.callbacks = .opened :: (messages ++ failures ++ last) ∧
        (∀ event ∈ messages, event.isMessage = true) ∧
        (failures = [] ∨ ∃ fault, failures = [.failed fault]) ∧
        (last = [] ∨ last = [.closed]) ∧
        (moment.activity = .waiting .ended → last = [.closed])) ∧
    (moment.callbacks ≠ [] ↔ ∃ note ∈ moment.journal, note.completes) ∧
    (∀ event state, .told event state ∈ moment.journal → event.isMessage = true →
      state = .opened) ∧
    ∃ before behind, (moment.run handler settings client (List.replicate before .proceed ++
      .arrive .endOfStream :: List.replicate behind .proceed)).activity = .waiting .ended := by
  intro moment
  obtain ⟨stage, disciplined⟩ :=
    (disciplined_start memory).run handler settings client turns
  refine ⟨?_, ?_, disciplined.message, exists_run_ended handler settings client moment⟩
  · have heard := disciplined.heard
    rcases shape : moment.callbacks with _ | ⟨first, rest⟩
    · exact .inl rfl
    · rw [shape] at heard
      obtain ⟨rfl, later⟩ := Stage.eq_cons_of_hearAll?_unheard heard
      obtain ⟨messages, failures, last, rfl, all, few, ends⟩ :=
        Stage.exists_parts_of_hearAll?_opened later
      refine .inr ⟨messages, failures, last, rfl, all, few, ?_, fun ended => ?_⟩
      · exact ends.imp And.left And.left
      · have standing := disciplined.standing
        rw [ended] at standing
        have known : stage ≠ .unheard := by
          rw [Ne, disciplined.unheard_iff, shape]
          exact nofun
        rcases ends with ⟨rfl, goes⟩ | ⟨rfl, -⟩
        · exact absurd (standing.ended_of_done known) goes
        · rfl
  · rw [← disciplined.completed]
    exact not_congr disciplined.unheard_iff.symm

end Moment

end CashHerald.Session
