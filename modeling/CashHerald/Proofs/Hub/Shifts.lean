import CashHerald.Proofs.Hub.Feed

/-!
Shifts of a relay: payloads are submitted, the two workers take one job at a time, the pipelines are
closed, and clients do what they like, all in any order. Main statement: at every moment of a shift
each worker has handled what decodes of the first payloads that were submitted before its pipeline
was closed, each once and in order, the others of these are waiting, and it is counted what has
become of all of them.
-/

namespace CashHerald.Hub

/-- A worker that also keeps a log of the values it handles. -/
def Worker.logging {Value State Entry : Type} (wrap : Value → Entry)
    (worker : Worker Value State) : Worker Value (State × List Entry) where
  decode := worker.decode
  count state sample amount := (worker.count state.1 sample amount, state.2)
  handle state value := (worker.handle state.1 value, state.2 ++ [wrap value])

/-- Apart from its log, a worker that keeps one does what it would do anyway. -/
theorem Worker.work?_logging {Value State Entry : Type} (wrap : Value → Entry)
    (worker : Worker Value State) (pipeline : Pipeline) (state : State) (log : List Entry) :
    ((worker.logging wrap).work? pipeline (state, log)).map (fun result => (result.1, result.2.1)) =
      worker.work? pipeline state := by
  unfold work?
  rcases pipeline.take? with _ | ⟨raw | _, later⟩
  · rfl
  · simp only [process, logging, Option.map_some]
    cases worker.decode raw <;> rfl
  · rfl

/-- A relay on duty: the connections of its clients, what its workers have handled, and the messages
that the writer of each client has taken. -/
structure Shift where
  relay : Relay
  connections : List Session.Connection
  handled : List Decoded
  taken : Nat → List Octets

/-- What happens next in a shift: a payload is submitted, a worker takes a job, or a pipeline is
closed; the writer of a client takes what is queued, the relay is told of an event on a connection,
or something else is done to the connections. -/
inductive Act where
  | submit (event : FeedEvent) (raw : Octets)
  | work (event : FeedEvent)
  | close (event : FeedEvent)
  | take (client : Nat)
  | tells (client : Nat) (event : Session.Event)
  | meanwhile (connections : List Session.Connection)

namespace Shift

/-- A relay without work, for a hub and the connections of its clients. -/
def start (hub : Hub) (connections : List Session.Connection) : Shift :=
  ⟨⟨hub, .start .block, .start .transaction⟩, connections, [], fun _ => []⟩

/-- The shift with another relay. -/
def withRelay (shift : Shift) (relay : Relay) : Shift :=
  ⟨relay, shift.connections, shift.handled, shift.taken⟩

/-- The shift after some work on an event. -/
def after (shift : Shift) (event : FeedEvent)
    (result : Pipeline × Relay.Floor × List Decoded) : Shift :=
  ⟨(shift.relay.withPipeline event result.1).withHub result.2.1.1, result.2.1.2, result.2.2,
    shift.taken⟩

/-- The worker of an event takes one job, if there is one. -/
def work? (shift : Shift) (event : FeedEvent) : Option Shift :=
  match event with
  | .block =>
    ((Relay.blockWorker.logging Decoded.block).work? shift.relay.blocks
      ((shift.relay.hub, shift.connections), shift.handled)).map (shift.after .block)
  | .transaction =>
    ((Relay.transactionWorker.logging Decoded.transaction).work? shift.relay.transactions
      ((shift.relay.hub, shift.connections), shift.handled)).map (shift.after .transaction)

/-- The shift after something has happened. A worker without a job waits. -/
def act (shift : Shift) : Act → Shift
  | .submit event raw => shift.withRelay (shift.relay.submit event raw).1
  | .work event => (shift.work? event).getD shift
  | .close event => shift.withRelay (shift.relay.close event)
  | .take client =>
    match shift.connections[client]? with
    | none => shift
    | some connection =>
      ⟨shift.relay, shift.connections.set client connection.take.2, shift.handled,
        Function.update shift.taken client (shift.taken client ++ connection.messages)⟩
  | .tells client event =>
    match shift.connections[client]? with
    | none => shift
    | some connection =>
      let (later, relay) := (Relay.handler shift.relay client event).run connection
      ⟨relay, shift.connections.set client later, shift.handled, shift.taken⟩
  | .meanwhile connections => ⟨shift.relay, connections, shift.handled, shift.taken⟩

/-- The shift after some acts. -/
def run (shift : Shift) (acts : List Act) : Shift :=
  acts.foldl act shift

/-- Both workers have stopped. -/
def Stopped (shift : Shift) : Prop :=
  ∀ event, (shift.relay.pipeline event).working = false

/-- Apart from what is remembered of it, the work of a shift is that of its relay. -/
theorem map_work? (shift : Shift) (event : FeedEvent) :
    (shift.work? event).map (fun later => (later.relay, later.connections)) =
      shift.relay.work? shift.connections event := by
  cases event with
  | block =>
    simp only [work?, Relay.work?, Option.map_map]
    rw [← Worker.work?_logging Decoded.block Relay.blockWorker shift.relay.blocks _ shift.handled,
      Option.map_map]
    rfl
  | transaction =>
    simp only [work?, Relay.work?, Option.map_map]
    rw [← Worker.work?_logging Decoded.transaction Relay.transactionWorker
      shift.relay.transactions _ shift.handled, Option.map_map]
    rfl

/-- The shift when a payload has been processed: it is off the queue, and either it is counted as a
failure or its value is counted, announced and remembered. -/
def process (shift : Shift) (event : FeedEvent) (raw : Octets) : Shift :=
  let hub := shift.relay.hub.count (.queueDepth event) (-1)
  match Decoded.of? event raw with
  | none => shift.withRelay (shift.relay.withHub (hub.count (.decodeFailures event) 1))
  | some decoded =>
    let (later, changed) := decoded.announce (hub.count (.decoded event) 1) shift.connections
    ⟨shift.relay.withHub later, changed, shift.handled ++ [decoded], shift.taken⟩

/-- A worker processes the first payload of its queue, or stops. -/
theorem work?_eq {shift : Shift} {event : FeedEvent}
    (named : (shift.relay.pipeline event).event = event) :
    shift.work? event =
      match (shift.relay.pipeline event).take? with
      | none => none
      | some (.finish, later) => some (shift.withRelay (shift.relay.withPipeline event later))
      | some (.payload raw, later) =>
        some ((shift.withRelay (shift.relay.withPipeline event later)).process event raw) := by
  cases event with
  | block =>
    have named : shift.relay.blocks.event = .block := named
    have same : shift.relay.pipeline .block = shift.relay.blocks := rfl
    rw [same]
    unfold work? Worker.work?
    rcases shift.relay.blocks.take? with _ | ⟨raw | _, later⟩
    · rfl
    · simp only [Option.map_some, named, Worker.process, Worker.logging, Relay.blockWorker,
        Relay.countOn, process, Decoded.of?]
      cases Ledger.Block.decode raw <;> rfl
    · rfl
  | transaction =>
    have named : shift.relay.transactions.event = .transaction := named
    have same : shift.relay.pipeline .transaction = shift.relay.transactions := rfl
    rw [same]
    unfold work? Worker.work?
    rcases shift.relay.transactions.take? with _ | ⟨raw | _, later⟩
    · rfl
    · simp only [Option.map_some, named, Worker.process, Worker.logging, Relay.transactionWorker,
        Relay.countOn, process, Decoded.of?]
      cases Ledger.Transaction.decode raw <;> rfl
    · rfl

end Shift

namespace Pipeline

variable {pipeline later : Pipeline}

theorem event_submit (pipeline : Pipeline) (raw : Octets) :
    (pipeline.submit raw).1.event = pipeline.event := by
  unfold submit deliver
  split
  · rfl
  · split <;> rfl

theorem event_close (pipeline : Pipeline) : pipeline.close.event = pipeline.event := by
  unfold close deliver forbid
  split
  · rfl
  · split <;> rfl

theorem event_of_take? {job : Job} (found : pipeline.take? = some (job, later)) :
    later.event = pipeline.event := by
  simp only [take?] at found
  split at found
  · split at found <;> cases found <;> rfl
  · cases found

/-- A pipeline with some payloads in its queue: it is open, or it has been closed behind them, or
its worker has met the end. -/
inductive Holds (event : FeedEvent) : Pipeline → List Octets → Bool → Prop
  | opened (waiting : List Octets) :
    Holds event ⟨event, waiting.map .payload, false, true⟩ waiting false
  | closing (waiting : List Octets) :
    Holds event ⟨event, waiting.map .payload ++ [.finish], true, true⟩ waiting true
  | stopped : Holds event ⟨event, [], true, false⟩ [] true

theorem event_of_holds {event : FeedEvent} {waiting : List Octets} {closed : Bool}
    (holds : Holds event pipeline waiting closed) : pipeline.event = event := by
  cases holds <;> rfl

end Pipeline

namespace Shift

/-- The payloads of an event that are submitted before its pipeline is closed. -/
def submitted (event : FeedEvent) : List Act → List Octets
  | [] => []
  | .submit other raw :: rest =>
    if other = event then raw :: submitted event rest else submitted event rest
  | .close other :: rest => if other = event then [] else submitted event rest
  | _ :: rest => submitted event rest

/-- How far the worker of an event has got: what it has done of the payloads, what is waiting, and
what is remembered and counted of that. -/
structure Progress (hub : Hub) (event : FeedEvent) (done waiting : List Octets) (closed : Bool)
    (shift : Shift) : Prop where
  holds : Pipeline.Holds event (shift.relay.pipeline event) waiting closed
  handled : shift.handled.filter (·.event = event) = done.filterMap (Decoded.of? event)
  decoded : shift.relay.hub.tally.get (.decoded event) = hub.tally.get (.decoded event) +
    (done.countP fun raw => (Decoded.of? event raw).isSome)
  failures : shift.relay.hub.tally.get (.decodeFailures event) =
    hub.tally.get (.decodeFailures event) +
      (done.countP fun raw => (Decoded.of? event raw).isNone)
  depth : shift.relay.hub.tally.get (.queueDepth event) =
    hub.tally.get (.queueDepth event) + waiting.length

theorem progress_start (hub : Hub) (connections : List Session.Connection) (event : FeedEvent) :
    Progress hub event [] [] false (start hub connections) := by
  refine ⟨?_, rfl, by simp [start], by simp [start], by simp [start]⟩
  cases event <;> exact .opened []

/-- A change of a shift that does not concern an event. -/
structure Apart (event : FeedEvent) (shift later : Shift) : Prop where
  pipeline : later.relay.pipeline event = shift.relay.pipeline event
  handled : later.handled.filter (·.event = event) = shift.handled.filter (·.event = event)
  counts : ∀ sample ∈ [.decoded event, .decodeFailures event, .queueDepth event],
    later.relay.hub.tally.get sample = shift.relay.hub.tally.get sample

section Progress

variable {hub : Hub} {event other : FeedEvent} {done waiting : List Octets} {closed : Bool}
  {shift later : Shift}

theorem Progress.apart (progress : Progress hub event done waiting closed shift)
    (apart : Apart event shift later) : Progress hub event done waiting closed later where
  holds := apart.pipeline ▸ progress.holds
  handled := apart.handled.trans progress.handled
  decoded := (apart.counts _ (by simp)).trans progress.decoded
  failures := (apart.counts _ (by simp)).trans progress.failures
  depth := (apart.counts _ (by simp)).trans progress.depth

/-- What keeps the pipelines, what has been handled and the counts of payloads concerns no event. -/
theorem apart_of_feedKept (pipeline : later.relay.pipeline event = shift.relay.pipeline event)
    (handled : later.handled = shift.handled)
    (kept : FeedKept shift.relay.hub later.relay.hub) : Apart event shift later := by
  refine ⟨pipeline, by rw [handled], fun sample mem => kept sample ?_⟩
  obtain rfl | rfl | rfl : sample = .decoded event ∨ sample = .decodeFailures event ∨
      sample = .queueDepth event := by
    simpa using mem
  all_goals rfl

theorem Apart.refl (event : FeedEvent) (shift : Shift) : Apart event shift shift :=
  ⟨rfl, rfl, fun _ _ => rfl⟩

theorem pipeline_withPipeline (relay : Relay) (event : FeedEvent) (pipeline : Pipeline) :
    (relay.withPipeline event pipeline).pipeline event = pipeline := by
  cases event <;> rfl

theorem pipeline_withPipeline_other (relay : Relay) (differs : other ≠ event)
    (pipeline : Pipeline) :
    (relay.withPipeline other pipeline).pipeline event = relay.pipeline event := by
  cases other <;> cases event <;> first | rfl | exact absurd rfl differs

theorem hub_withPipeline (relay : Relay) (event : FeedEvent) (pipeline : Pipeline) :
    (relay.withPipeline event pipeline).hub = relay.hub := by
  cases event <;> rfl

theorem pipeline_withHub (relay : Relay) (event : FeedEvent) (hub : Hub) :
    (relay.withHub hub).pipeline event = relay.pipeline event := by
  cases event <;> rfl

/-- A submission that is refused changes nothing. -/
theorem submit_of_closed {relay : Relay} {raw : Octets}
    (closed : (relay.pipeline event).closed = true) : relay.submit event raw = (relay, false) := by
  simp only [Relay.submit, Pipeline.submit_of_closed raw closed]

/-- A payload is queued behind the others, unless the pipeline is closed. -/
theorem Progress.submit (progress : Progress hub event done waiting closed shift) (raw : Octets) :
    Progress hub event done (waiting ++ if closed then [] else [raw]) closed
      (shift.act (.submit event raw)) := by
  have holds := progress.holds
  have refused (shut : (shift.relay.pipeline event).closed = true) :
      shift.act (.submit event raw) = shift := by
    simp only [act, submit_of_closed shut]
    rfl
  generalize same : shift.relay.pipeline event = pipeline at holds refused
  cases holds with
  | opened =>
    have queued : (shift.relay.submit event raw).1 =
        (shift.relay.withPipeline event
          ⟨event, waiting.map .payload ++ [.payload raw], false, true⟩).withHub
            (shift.relay.hub.count (.queueDepth event) 1) := by
      simp [Relay.submit, same, Pipeline.submit, Pipeline.deliver]
    simp only [act, queued, Bool.false_eq_true, if_false]
    refine ⟨?_, progress.handled, ?_, ?_, ?_⟩
    · have opened : Pipeline.Holds event ⟨event, (waiting ++ [raw]).map .payload, false, true⟩
          (waiting ++ [raw]) false := .opened _
      rw [List.map_append, List.map_singleton] at opened
      simpa only [withRelay, pipeline_withHub, pipeline_withPipeline] using opened
    · refine Eq.trans ?_ progress.decoded
      simp [withRelay, Relay.withHub, get_count]
    · refine Eq.trans ?_ progress.failures
      simp [withRelay, Relay.withHub, get_count]
    · have depth := progress.depth
      simp only [withRelay, Relay.withHub, get_count, depth, List.length_append]
      simp
      omega
  | closing =>
    rw [refused rfl, if_pos rfl, List.append_nil]
    exact progress
  | stopped =>
    rw [refused rfl, if_pos rfl, List.append_nil]
    exact progress

theorem apart_submit (differs : other ≠ event) (shift : Shift) (raw : Octets) :
    Apart event shift (shift.act (.submit other raw)) := by
  simp only [act, Relay.submit]
  split
  · exact .refl event shift
  · refine ⟨?_, rfl, fun sample mem => ?_⟩
    · simp only [withRelay, pipeline_withHub, pipeline_withPipeline_other _ differs]
    · have apart : sample ≠ .queueDepth other := by
        rintro rfl
        simp [differs] at mem
      simp [withRelay, Relay.withHub, get_count, apart]

/-- Closing a pipeline leaves what is queued to be done. -/
theorem Progress.close (progress : Progress hub event done waiting closed shift) :
    Progress hub event done waiting true (shift.act (.close event)) := by
  have holds := progress.holds
  refine ⟨?_, progress.handled, ?_, ?_, ?_⟩
  · simp only [act, withRelay, Relay.close, pipeline_withPipeline]
    generalize shift.relay.pipeline event = pipeline at holds
    cases holds with
    | opened => exact .closing waiting
    | closing => exact .closing waiting
    | stopped => exact .stopped
  · simpa only [act, withRelay, Relay.close, hub_withPipeline] using progress.decoded
  · simpa only [act, withRelay, Relay.close, hub_withPipeline] using progress.failures
  · simpa only [act, withRelay, Relay.close, hub_withPipeline] using progress.depth

theorem apart_close (differs : other ≠ event) (shift : Shift) :
    Apart event shift (shift.act (.close other)) := by
  refine ⟨?_, rfl, fun sample _ => ?_⟩
  · simp only [act, withRelay, Relay.close, pipeline_withPipeline_other _ differs]
  · simp only [act, withRelay, Relay.close, hub_withPipeline]

/-- The counts of an event when a payload has been processed. -/
theorem get_process (shift : Shift) (event : FeedEvent) (raw : Octets) {sample : Sample}
    (fed : sample.isFeed = true) :
    (shift.process event raw).relay.hub.tally.get sample =
      shift.relay.hub.tally.get sample + (if sample = .queueDepth event then -1 else 0) +
        if sample = (if (Decoded.of? event raw).isSome then .decoded event
          else .decodeFailures event) then 1 else 0 := by
  unfold process
  rcases Decoded.of? event raw with _ | decoded
  · simp [withRelay, Relay.withHub, get_count]
  · obtain ⟨-, -, kept⟩ := Decoded.kept_announce
      ((shift.relay.hub.count (.queueDepth event) (-1)).count (.decoded event) 1)
      shift.connections decoded
    refine (kept sample fed).trans ?_
    simp [get_count]

theorem pipeline_process (shift : Shift) (event other : FeedEvent) (raw : Octets) :
    (shift.process event raw).relay.pipeline other = shift.relay.pipeline other := by
  unfold process
  rcases Decoded.of? event raw with _ | decoded <;> exact pipeline_withHub _ _ _

theorem handled_process (shift : Shift) (event : FeedEvent) (raw : Octets) :
    (shift.process event raw).handled = shift.handled ++ (Decoded.of? event raw).toList := by
  unfold process
  rcases Decoded.of? event raw with _ | decoded
  · exact (List.append_nil _).symm
  · rfl

/-- A payload that is processed is taken off the queue, counted, and handled if it decodes. -/
theorem Progress.process {raw : Octets} {rest : List Octets} {pipeline : Pipeline}
    (progress : Progress hub event done (raw :: rest) closed shift)
    (holds : Pipeline.Holds event pipeline rest closed) :
    Progress hub event (done ++ [raw]) rest closed
      ((shift.withRelay (shift.relay.withPipeline event pipeline)).process event raw) where
  holds := by
    rw [pipeline_process]
    exact (pipeline_withPipeline shift.relay event pipeline).symm ▸ holds
  handled := by
    rw [handled_process, List.filter_append, List.filterMap_append]
    refine congrArg₂ _ progress.handled ?_
    rcases found : Decoded.of? event raw with _ | decoded
    · simp [found]
    · simp [found, Decoded.event_of? found]
  decoded := by
    rw [get_process _ _ _ rfl]
    simp only [withRelay, hub_withPipeline, progress.decoded, List.countP_append]
    rcases found : Decoded.of? event raw with _ | decoded
    · simp [found]
    · simp [found]
      omega
  failures := by
    rw [get_process _ _ _ rfl]
    simp only [withRelay, hub_withPipeline, progress.failures, List.countP_append]
    rcases found : Decoded.of? event raw with _ | decoded
    · simp [found]
      omega
    · simp [found]
  depth := by
    rw [get_process _ _ _ rfl]
    simp only [withRelay, hub_withPipeline, progress.depth]
    rcases Decoded.of? event raw with _ | decoded
    · simp
      omega
    · simp
      omega

theorem apart_process (differs : other ≠ event) (shift : Shift) (raw : Octets) :
    Apart event shift (shift.process other raw) where
  pipeline := pipeline_process shift other event raw
  handled := by
    rw [handled_process, List.filter_append]
    rcases found : Decoded.of? other raw with _ | decoded
    · exact List.append_nil _
    · simp [Decoded.event_of? found, differs]
  counts := by
    intro sample mem
    obtain rfl | rfl | rfl : sample = .decoded event ∨ sample = .decodeFailures event ∨
        sample = .queueDepth event := by
      simpa using mem
    all_goals
      rw [get_process _ _ _ rfl]
      rcases Decoded.of? other raw with _ | decoded <;> simp [Ne.symm differs]

theorem Apart.trans {first second third : Shift} (front : Apart event first second)
    (back : Apart event second third) : Apart event first third :=
  ⟨back.pipeline.trans front.pipeline, back.handled.trans front.handled,
    fun sample mem => (back.counts sample mem).trans (front.counts sample mem)⟩

theorem apart_withPipeline (differs : other ≠ event) (shift : Shift) (pipeline : Pipeline) :
    Apart event shift (shift.withRelay (shift.relay.withPipeline other pipeline)) :=
  ⟨pipeline_withPipeline_other shift.relay differs pipeline, rfl,
    fun _ _ => by simp only [withRelay, hub_withPipeline]⟩

/-- The worker takes the payloads in the order in which they wait, and stops behind the last one if
the pipeline is closed. -/
theorem Progress.work (progress : Progress hub event done waiting closed shift) :
    ∃ more left, Progress hub event more left closed (shift.act (.work event)) ∧
      more ++ left = done ++ waiting := by
  have holds := progress.holds
  have worked := work?_eq (Pipeline.event_of_holds holds)
  generalize same : shift.relay.pipeline event = pipeline at holds worked
  cases holds with
  | opened =>
    cases waiting with
    | nil =>
      refine ⟨done, [], ?_, rfl⟩
      have idle : shift.work? event = none := worked
      simpa only [act, idle, Option.getD_none] using progress
    | cons raw rest =>
      have processed : shift.act (.work event) = (shift.withRelay (shift.relay.withPipeline event
          ⟨event, rest.map .payload, false, true⟩)).process event raw :=
        congrArg (·.getD shift) worked
      rw [processed]
      exact ⟨done ++ [raw], rest, progress.process (.opened rest), by simp⟩
  | closing =>
    cases waiting with
    | nil =>
      have stopped : shift.act (.work event) =
          shift.withRelay (shift.relay.withPipeline event ⟨event, [], true, false⟩) :=
        congrArg (·.getD shift) worked
      rw [stopped]
      refine ⟨done, [], ⟨?_, progress.handled, ?_, ?_, ?_⟩, rfl⟩
      · simp only [withRelay, pipeline_withPipeline]
        exact .stopped
      · simpa only [withRelay, hub_withPipeline] using progress.decoded
      · simpa only [withRelay, hub_withPipeline] using progress.failures
      · simpa only [withRelay, hub_withPipeline] using progress.depth
    | cons raw rest =>
      have processed : shift.act (.work event) = (shift.withRelay (shift.relay.withPipeline event
          ⟨event, rest.map .payload ++ [.finish], true, true⟩)).process event raw :=
        congrArg (·.getD shift) worked
      rw [processed]
      exact ⟨done ++ [raw], rest, progress.process (.closing rest), by simp⟩
  | stopped =>
    refine ⟨done, [], ?_, rfl⟩
    have idle : shift.work? event = none := worked
    simpa only [act, idle, Option.getD_none] using progress

theorem apart_work (differs : other ≠ event)
    (named : (shift.relay.pipeline other).event = other) :
    Apart event shift (shift.act (.work other)) := by
  simp only [act, work?_eq named]
  rcases (shift.relay.pipeline other).take? with _ | ⟨raw | _, later⟩
  · exact .refl event shift
  · exact (apart_withPipeline differs shift later).trans (apart_process differs _ raw)
  · exact apart_withPipeline differs shift later

theorem apart_tells (event : FeedEvent) (shift : Shift) (client : Nat) (told : Session.Event) :
    Apart event shift (shift.act (.tells client told)) := by
  simp only [act]
  split
  · exact .refl event shift
  · rename_i connection known
    simp only [Relay.handler, Session.Reaction.run_map]
    exact apart_of_feedKept (pipeline_withHub _ _ _) rfl (FeedKept.handler _ _ _ _)

theorem apart_take (event : FeedEvent) (shift : Shift) (client : Nat) :
    Apart event shift (shift.act (.take client)) := by
  simp only [act]
  split
  · exact .refl event shift
  · exact ⟨rfl, rfl, fun _ _ => rfl⟩

theorem named_withPipeline {relay : Relay} (named : ∀ event, (relay.pipeline event).event = event)
    {pipeline : Pipeline} (own : pipeline.event = other) (event : FeedEvent) :
    ((relay.withPipeline other pipeline).pipeline event).event = event := by
  by_cases same : other = event
  · rw [← same, pipeline_withPipeline, own]
  · rw [pipeline_withPipeline_other relay same, named]

/-- The pipelines stay those of their events. -/
theorem named_act (named : ∀ event, (shift.relay.pipeline event).event = event) (act : Act)
    (event : FeedEvent) : ((shift.act act).relay.pipeline event).event = event := by
  cases act with
  | submit other raw =>
    have own := (Pipeline.event_submit (shift.relay.pipeline other) raw).trans (named other)
    simp only [Shift.act, Relay.submit]
    split
    · exact named event
    · rename_i later queued
      rw [queued] at own
      simpa only [withRelay, pipeline_withHub] using named_withPipeline named own event
  | work other =>
    simp only [Shift.act, work?_eq (named other)]
    rcases found : (shift.relay.pipeline other).take? with _ | ⟨raw | _, rest⟩
    · exact named event
    · have own := (Pipeline.event_of_take? found).trans (named other)
      exact (congrArg Pipeline.event (pipeline_process _ other event raw)).trans
        (named_withPipeline named own event)
    · exact named_withPipeline named ((Pipeline.event_of_take? found).trans (named other)) event
  | close other =>
    exact named_withPipeline named ((Pipeline.event_close _).trans (named other)) event
  | take client =>
    simp only [Shift.act]
    split <;> exact named event
  | tells client told =>
    simp only [Shift.act]
    split
    · exact named event
    · simp only [Relay.handler, Session.Reaction.run_map, pipeline_withHub]
      exact named event
  | meanwhile connections => exact named event

/-- An act closes the pipeline of an event. -/
def closes (event : FeedEvent) : Act → Bool
  | .close other => other = event
  | _ => false

/-- Every act leaves the worker of an event further on in the payloads submitted for it. -/
theorem Progress.act (progress : Progress hub event done waiting closed shift)
    (named : ∀ other, (shift.relay.pipeline other).event = other) (act : Act) :
    ∃ more left, Progress hub event more left (closed || closes event act) (shift.act act) ∧
      more ++ left = done ++ waiting ++ if closed then [] else submitted event [act] := by
  have idle (apart : Apart event shift (shift.act act)) (lets : closes event act = false)
      (nothing : submitted event [act] = []) :
      ∃ more left, Progress hub event more left (closed || closes event act) (shift.act act) ∧
        more ++ left = done ++ waiting ++ if closed then [] else submitted event [act] := by
    refine ⟨done, waiting, ?_, by simp [nothing]⟩
    rw [lets, Bool.or_false]
    exact progress.apart apart
  cases act with
  | submit other raw =>
    by_cases same : other = event
    · subst same
      refine ⟨done, waiting ++ if closed then [] else [raw], ?_, by simp [submitted]⟩
      simpa [closes] using progress.submit raw
    · exact idle (apart_submit same shift raw) rfl (by simp [submitted, same])
  | work other =>
    by_cases same : other = event
    · subst same
      obtain ⟨more, left, worked, total⟩ := progress.work
      refine ⟨more, left, ?_, by simp [submitted, total]⟩
      simpa [closes] using worked
    · exact idle (apart_work same (named other)) rfl rfl
  | close other =>
    by_cases same : other = event
    · subst same
      refine ⟨done, waiting, ?_, by simp [submitted]⟩
      simpa [closes] using progress.close
    · exact idle (apart_close same shift) (by simp [closes, same]) (by simp [submitted, same])
  | take client => exact idle (apart_take event shift client) rfl rfl
  | tells client told => exact idle (apart_tells event shift client told) rfl rfl
  | meanwhile connections =>
    exact idle ⟨rfl, rfl, fun _ _ => rfl⟩ rfl rfl

/-- Nothing is submitted behind the act that closes a pipeline. -/
theorem submitted_cons (event : FeedEvent) (act : Act) (rest : List Act) :
    submitted event (act :: rest) =
      submitted event [act] ++ if closes event act then [] else submitted event rest := by
  cases act with
  | submit other raw => by_cases same : other = event <;> simp [submitted, closes, same]
  | close other => by_cases same : other = event <;> simp [submitted, closes, same]
  | _ => simp [submitted, closes]

end Progress

/-- A run leaves each worker further on in the payloads that were submitted for it. -/
theorem exists_progress_run {hub : Hub} {shift : Shift} {done waiting : FeedEvent → List Octets}
    {closed : FeedEvent → Bool}
    (progress : ∀ event, Progress hub event (done event) (waiting event) (closed event) shift)
    (acts : List Act) (event : FeedEvent) :
    ∃ more left, Progress hub event more left (closed event || acts.any (closes event))
        (shift.run acts) ∧
      more ++ left = done event ++ waiting event ++
        if closed event then [] else submitted event acts := by
  induction acts generalizing shift done waiting closed with
  | nil =>
    refine ⟨done event, waiting event, ?_, by simp [submitted]⟩
    simpa [run] using progress event
  | cons act rest inductionHypothesis =>
    have named (other : FeedEvent) : (shift.relay.pipeline other).event = other :=
      Pipeline.event_of_holds (progress other).holds
    choose more left further total using fun other => (progress other).act named act
    obtain ⟨most, last, furthest, whole⟩ := inductionHypothesis further
    refine ⟨most, last, ?_, ?_⟩
    · rwa [List.any_cons, ← Bool.or_assoc]
    · rw [whole, total, submitted_cons event act rest]
      cases closed event <;> cases closes event act <;> simp

end Shift

end CashHerald.Hub
