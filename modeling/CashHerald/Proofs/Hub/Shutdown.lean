import CashHerald.Proofs.Hub.Hearing

/-!
The end of a shift. Whatever has happened, closing both pipelines and letting the workers work makes
them stop, which is what a shutdown of the relay does. Main statement: when both have stopped, each
has handled what decodes of the payloads that were submitted before its pipeline was closed, each
once and in order, everything is counted, and nothing changes the pipelines any more; what a client
has been told of each event then depends on the payloads of that event only.
-/

namespace CashHerald.Hub

/-- Working off a queue is doing one job after another. -/
theorem Worker.workAll_eq {Value State : Type} (worker : Worker Value State) (pipeline : Pipeline)
    (state : State) :
    worker.workAll pipeline state =
      match worker.work? pipeline state with
      | none => (pipeline, state)
      | some (later, changed) => worker.workAll later changed := by
  rw [Worker.workAll.eq_def]
  unfold work?
  rcases pipeline.take? with _ | ⟨raw | _, later⟩ <;> rfl

theorem Relay.workAll_eq (relay : Relay) (connections : List Session.Connection)
    (event : FeedEvent) :
    relay.workAll connections event =
      match relay.work? connections event with
      | none => (relay, connections)
      | some (later, changed) => later.workAll changed event := by
  cases event with
  | block =>
    simp only [workAll, work?]
    rw [Worker.workAll_eq]
    cases blockWorker.work? relay.blocks (relay.hub, connections) <;> rfl
  | transaction =>
    simp only [workAll, work?]
    rw [Worker.workAll_eq]
    cases transactionWorker.work? relay.transactions (relay.hub, connections) <;> rfl

namespace Shift

variable {shift later : Shift} {event : FeedEvent}

theorem run_append (shift : Shift) (front back : List Act) :
    shift.run (front ++ back) = (shift.run front).run back :=
  List.foldl_append

/-- A worker that does something takes a job. -/
theorem exists_take?_of_work? (named : (shift.relay.pipeline event).event = event)
    (worked : shift.work? event = some later) :
    ∃ job, (shift.relay.pipeline event).take? = some (job, later.relay.pipeline event) := by
  rw [work?_eq named] at worked
  rcases found : (shift.relay.pipeline event).take? with _ | ⟨raw | _, rest⟩ <;>
    rw [found] at worked <;> cases worked
  · exact ⟨.payload raw, by simp only [pipeline_process, withRelay, pipeline_withPipeline]⟩
  · exact ⟨.finish, by simp only [withRelay, pipeline_withPipeline]⟩

/-- A worker that is left to itself works off its queue, and then there is nothing left to do. -/
theorem exists_run_workAll (named : (shift.relay.pipeline event).event = event) :
    ∃ times, ((shift.run (List.replicate times (.work event))).relay,
        (shift.run (List.replicate times (.work event))).connections) =
          shift.relay.workAll shift.connections event ∧
      (shift.run (List.replicate times (.work event))).work? event = none := by
  induction measured : (shift.relay.pipeline event).queue.length using Nat.strong_induction_on
    generalizing shift with
  | h length inductionHypothesis =>
    have same := shift.map_work? event
    rw [Relay.workAll_eq, ← same]
    cases worked : shift.work? event with
    | none => exact ⟨0, rfl, worked⟩
    | some later =>
      obtain ⟨job, taken⟩ := exists_take?_of_work? named worked
      obtain ⟨times, done, idle⟩ := inductionHypothesis _
        (measured ▸ Pipeline.length_queue_of_take? taken)
        ((Pipeline.event_of_take? taken).trans named) rfl
      have first : shift.run (List.replicate (times + 1) (.work event)) =
          later.run (List.replicate times (.work event)) := by
        simp only [List.replicate_succ, run, List.foldl_cons, act, worked, Option.getD_some]
      rw [first.symm] at done idle
      exact ⟨times + 1, done, idle⟩

/-- A worker that has nothing left to do behind the end has stopped. -/
theorem Progress.stopped {hub : Hub} {done waiting : List Octets}
    (progress : Progress hub event done waiting true shift) (idle : shift.work? event = none) :
    (shift.relay.pipeline event).working = false := by
  have holds := progress.holds
  rw [work?_eq (Pipeline.event_of_holds holds)] at idle
  generalize shift.relay.pipeline event = pipeline at holds idle
  cases holds with
  | closing =>
    cases waiting with
    | nil => cases idle
    | cons raw rest => cases idle
  | stopped => rfl

/-- Closing a pipeline and letting its worker work is what a shutdown does with it, and then the
worker has stopped. -/
theorem exists_run_closed {hub : Hub} {done waiting : FeedEvent → List Octets}
    {closed : FeedEvent → Bool}
    (progress : ∀ event, Progress hub event (done event) (waiting event) (closed event) shift)
    (event : FeedEvent) :
    ∃ more, (∀ act ∈ more, act = .close event ∨ act = .work event) ∧
      ((shift.run more).relay.pipeline event).working = false ∧
      ((shift.run more).relay, (shift.run more).connections) =
        (shift.relay.close event).workAll shift.connections event := by
  have named (other : FeedEvent) : (shift.relay.pipeline other).event = other :=
    Pipeline.event_of_holds (progress other).holds
  obtain ⟨times, worked, idle⟩ := exists_run_workAll (named_act named (.close event) event)
  obtain ⟨_, _, last, -⟩ :=
    exists_progress_run progress (.close event :: List.replicate times (.work event)) event
  have shut : (closed event ||
      (Act.close event :: List.replicate times (.work event)).any (closes event)) = true := by
    simp [closes]
  rw [shut] at last
  refine ⟨_, fun act mem => ?_, last.stopped idle, worked⟩
  rcases List.mem_cons.mp mem with closing | working
  · exact .inl closing
  · exact .inr (List.eq_of_mem_replicate working)

/-- From wherever a shift has got, both workers can be made to stop, and that is a shutdown. -/
theorem exists_run_shutdown {hub : Hub} {done waiting : FeedEvent → List Octets}
    {closed : FeedEvent → Bool}
    (progress : ∀ event, Progress hub event (done event) (waiting event) (closed event) shift) :
    ∃ more, (∀ act ∈ more, ∃ event, act = .close event ∨ act = .work event) ∧
      (shift.run more).Stopped ∧
      ((shift.run more).relay, (shift.run more).connections) =
        shift.relay.shutdown shift.connections := by
  obtain ⟨early, ofBlocks, blocksStopped, blocksWorked⟩ := exists_run_closed progress .block
  choose _ _ further _ using fun event => exists_progress_run progress early event
  obtain ⟨late, ofTransactions, transactionsStopped, transactionsWorked⟩ :=
    exists_run_closed further .transaction
  refine ⟨early ++ late, fun act mem => ?_, fun event => ?_, ?_⟩
  · rcases List.mem_append.mp mem with mem | mem
    · exact ⟨.block, ofBlocks act mem⟩
    · exact ⟨.transaction, ofTransactions act mem⟩
  · rw [run_append]
    cases event with
    | block =>
      -- The work on transactions leaves the pipeline of blocks as it is.
      have kept : ((shift.run early).run late).relay.blocks = (shift.run early).relay.blocks :=
        congrArg (fun result : Relay × List Session.Connection => result.1.blocks)
          transactionsWorked
      exact (congrArg Pipeline.working kept).trans blocksStopped
    | transaction => exact transactionsStopped
  · rw [run_append, transactionsWorked, Relay.shutdown, ← blocksWorked]

section Finished

variable {hub : Hub} {connections : List Session.Connection} {acts : List Act}

/-- What a shift has come to. Of each event, what decodes of the payloads submitted before its
pipeline was closed has been handled, each payload once and in order; all payloads are counted, and
none is waiting. The relay takes no more payloads and has nothing left to shut down. If nothing else
happened to the subscriptions and to who is reached, each client has got what it had before, behind
it the announcements of each event in order, and asides that the payloads have no part in. -/
structure Finished (hub : Hub) (connections : List Session.Connection) (acts : List Act)
    (last : Shift) : Prop where
  handled : ∀ event, last.handled.filter (·.event = event) =
    (submitted event acts).filterMap (Decoded.of? event)
  decoded : ∀ event, last.relay.hub.tally.get (.decoded event) =
    hub.tally.get (.decoded event) +
      ((submitted event acts).countP fun raw => (Decoded.of? event raw).isSome)
  failures : ∀ event, last.relay.hub.tally.get (.decodeFailures event) =
    hub.tally.get (.decodeFailures event) +
      ((submitted event acts).countP fun raw => (Decoded.of? event raw).isNone)
  depth : ∀ event, last.relay.hub.tally.get (.queueDepth event) =
    hub.tally.get (.queueDepth event)
  refused : ∀ event raw, last.relay.submit event raw = (last.relay, false)
  shutdown : last.relay.shutdown last.connections = (last.relay, last.connections)
  received : (start hub connections).Steady acts → ∀ client connection,
    connections[client]? = some connection →
      ∃ told, last.received client = connection.messages ++ told.map Prod.snd ∧
        (∀ event, tagged (some event) told =
          ((submitted event acts).filterMap (Decoded.of? event)).flatMap
            (Decoded.copies hub client connection)) ∧
        tagged none told = (start hub connections).aside client acts

/-- A worker that has stopped has worked off its queue. -/
theorem Progress.worked_off {done waiting : List Octets} {closed : Bool}
    (progress : Progress hub event done waiting closed shift)
    (stopped : (shift.relay.pipeline event).working = false) :
    waiting = [] ∧ shift.relay.pipeline event = ⟨event, [], true, false⟩ := by
  have holds := progress.holds
  generalize shift.relay.pipeline event = pipeline at holds stopped
  cases holds with
  | opened => cases stopped
  | closing => cases stopped
  | stopped => exact ⟨rfl, rfl⟩

/-- A shutdown finds nothing to do at a relay whose pipelines have been closed and worked off. -/
theorem shutdown_of_stopped {relay : Relay}
    (stopped : ∀ event, relay.pipeline event = ⟨event, [], true, false⟩)
    (connections : List Session.Connection) :
    relay.shutdown connections = (relay, connections) := by
  have closed (event : FeedEvent) : relay.close event = relay := by
    have same : (relay.pipeline event).close = relay.pipeline event := by
      rw [stopped event]
      rfl
    rw [Relay.close, same]
    cases event <;> rfl
  have idle (event : FeedEvent) : relay.workAll connections event = (relay, connections) := by
    have nothing : (relay.pipeline event).take? = none := by
      rw [stopped event]
      rfl
    rw [Relay.workAll_eq]
    cases event with
    | block =>
      have blocks : relay.blocks.take? = none := nothing
      simp only [Relay.work?, Worker.work?, blocks, Option.map_none]
    | transaction =>
      have transactions : relay.transactions.take? = none := nothing
      simp only [Relay.work?, Worker.work?, transactions, Option.map_none]
  simp only [Relay.shutdown, closed, idle]

/-- Every shift can be brought to its end by a shutdown, and at its end it is finished. -/
theorem ends_finished (hub : Hub) (connections : List Session.Connection) (acts : List Act) :
    (∃ more, (∀ act ∈ more, ∃ event, act = .close event ∨ act = .work event) ∧
      ((start hub connections).run (acts ++ more)).Stopped ∧
      (((start hub connections).run (acts ++ more)).relay,
          ((start hub connections).run (acts ++ more)).connections) =
        ((start hub connections).run acts).relay.shutdown
          ((start hub connections).run acts).connections) ∧
      (((start hub connections).run acts).Stopped →
        Finished hub connections acts ((start hub connections).run acts)) := by
  have further := exists_progress_run (progress_start hub connections) acts
  choose done waiting progress total using further
  simp only [List.append_nil, List.nil_append, Bool.false_eq_true, if_false] at total
  refine ⟨?_, fun stopped => ?_⟩
  · obtain ⟨more, work, stopped, shut⟩ := exists_run_shutdown progress
    rw [← run_append] at stopped shut
    exact ⟨more, work, stopped, shut⟩
  · have workedOff := fun event => (progress event).worked_off (stopped event)
    have whole : done = fun event => submitted event acts := by
      funext event
      rw [← total event, (workedOff event).1, List.append_nil]
    subst whole
    have closed := fun event => (workedOff event).2
    refine ⟨fun event => (progress event).handled, fun event => (progress event).decoded,
      fun event => (progress event).failures, fun event => ?_, fun event raw => ?_,
      shutdown_of_stopped closed _, fun steady client connection known => ?_⟩
    · simpa [(workedOff event).1] using (progress event).depth
    · exact submit_of_closed (by rw [closed event])
    · have named (event : FeedEvent) : ((start hub connections).relay.pipeline event).event =
          event := by
        cases event <;> rfl
      have before : (start hub connections).received client = connection.messages :=
        received_of_known known
      obtain ⟨fresh, told, handled, received, fed, besides⟩ := hears_run named known steady
      obtain rfl : _ = fresh := handled
      rw [before] at received
      refine ⟨told, received, fun event => ?_, besides⟩
      exact (fed event).trans (congrArg _ (progress event).handled)

/-- A transaction and a block that does not decode are submitted, and more of both before and after
the pipelines are closed. -/
def day : List Act :=
  [.submit .transaction [1, 0, 0, 0, 0, 0, 0, 0, 0, 0], .submit .block [], .work .transaction,
    .submit .transaction [1], .close .block, .submit .block [2], .close .transaction,
    .work .transaction, .work .block, .work .transaction, .work .block]

theorem finished_day :
    ((start audience seats).run day).Stopped ∧ (start audience seats).Steady day ∧
      Finished audience seats day ((start audience seats).run day) := by
  have stopped : ((start audience seats).run day).Stopped := by
    intro event
    cases event <;> decide +kernel
  have named (event : FeedEvent) : ((start audience seats).relay.pipeline event).event = event := by
    cases event <;> rfl
  exact ⟨stopped, (steady_of_fed named (by decide)).1, (ends_finished audience seats day).2 stopped⟩

end Finished

end Shift

end CashHerald.Hub
