import CashHerald.Hub.Tally
import CashHerald.Ledger.Cursor

/-!
A queue of raw payloads of one event, which one worker decodes and handles in the order they came.
Closing it lets the worker finish what is queued. Main statements: a submission to a closed pipeline
changes nothing, and closing twice is closing once.
-/

namespace CashHerald.Hub

/-- A job is a payload, or the end of the work. -/
inductive Job where
  | payload (raw : Octets)
  | finish
  deriving DecidableEq, Repr

/-- The worker takes jobs until it meets the end; what is queued behind that is lost. -/
structure Pipeline where
  event : FeedEvent
  queue : List Job
  closed : Bool
  working : Bool
  deriving DecidableEq, Repr

/-- The text of the error that a submission to a closed pipeline gets. -/
def FeedEvent.closedMessage (event : FeedEvent) : String :=
  event.name ++ " pipeline is shut down"

namespace Pipeline

/-- A pipeline with nothing to do. -/
def start (event : FeedEvent) : Pipeline :=
  ⟨event, [], false, true⟩

/-- Queues a job while the worker works, and tells whether it does. -/
def deliver (pipeline : Pipeline) (job : Job) : Pipeline × Bool :=
  if pipeline.working then
    (⟨pipeline.event, pipeline.queue ++ [job], pipeline.closed, true⟩, true)
  else (pipeline, false)

/-- Queues a payload unless the pipeline is closed, and tells whether it was queued. -/
def submit (pipeline : Pipeline) (raw : Octets) : Pipeline × Bool :=
  if pipeline.closed then (pipeline, false) else pipeline.deliver (.payload raw)

/-- Refuses further submissions from now on. -/
def forbid (pipeline : Pipeline) : Pipeline :=
  ⟨pipeline.event, pipeline.queue, true, pipeline.working⟩

/-- Closes the pipeline behind what is queued. -/
def close (pipeline : Pipeline) : Pipeline :=
  if pipeline.closed then pipeline else (pipeline.forbid.deliver .finish).1

/-- The worker's next job, if there is one. -/
def take? (pipeline : Pipeline) : Option (Job × Pipeline) :=
  if pipeline.working then
    match pipeline.queue with
    | [] => none
    | .finish :: rest => some (.finish, ⟨pipeline.event, rest, pipeline.closed, false⟩)
    | .payload raw :: rest => some (.payload raw, ⟨pipeline.event, rest, pipeline.closed, true⟩)
  else none

/-- A submission to a closed pipeline changes nothing. -/
theorem submit_of_closed {pipeline : Pipeline} (raw : Octets) (closed : pipeline.closed = true) :
    pipeline.submit raw = (pipeline, false) := by
  simp [submit, closed]

theorem closed_close (pipeline : Pipeline) : pipeline.close.closed = true := by
  unfold close
  split
  · assumption
  · simp only [deliver]
    split <;> rfl

/-- Closing twice is closing once. -/
theorem close_close (pipeline : Pipeline) : pipeline.close.close = pipeline.close := by
  conv => lhs; rw [close]
  simp [closed_close]

/-- Taking a job leaves one job fewer. -/
theorem length_queue_of_take? {pipeline later : Pipeline} {job : Job}
    (found : pipeline.take? = some (job, later)) :
    later.queue.length < pipeline.queue.length := by
  simp only [take?] at found
  split at found
  · split at found
    · cases found
    · rename_i rest queued
      cases found
      simp [queued]
    · rename_i raw rest queued
      cases found
      simp [queued]
  · cases found

end Pipeline

/-- A worker decodes payloads into values, handles them one at a time, and counts, all on some
state. -/
structure Worker (Value State : Type) where
  decode : Octets → Except Ledger.DecodeError Value
  count : State → Sample → Int → State
  handle : State → Value → State

namespace Worker

variable {Value State : Type}

/-- Submits a payload to a pipeline, counts it, and tells whether it was queued. -/
def submit (worker : Worker Value State) (pipeline : Pipeline) (state : State) (raw : Octets) :
    Pipeline × State × Bool :=
  match pipeline.submit raw with
  | (_, false) => (pipeline, state, false)
  | (later, true) => (later, worker.count state (.queueDepth pipeline.event) 1, true)

/-- Decodes a payload and handles its value; one that does not decode is counted and dropped. -/
def process (worker : Worker Value State) (event : FeedEvent) (state : State) (raw : Octets) :
    State :=
  let taken := worker.count state (.queueDepth event) (-1)
  match worker.decode raw with
  | .error _ => worker.count taken (.decodeFailures event) 1
  | .ok value => worker.handle (worker.count taken (.decoded event) 1) value

/-- Does the next job of a pipeline, if there is one. -/
def work? (worker : Worker Value State) (pipeline : Pipeline) (state : State) :
    Option (Pipeline × State) :=
  match pipeline.take? with
  | none => none
  | some (.finish, later) => some (later, state)
  | some (.payload raw, later) => some (later, worker.process pipeline.event state raw)

/-- Does all jobs of a pipeline. -/
def workAll (worker : Worker Value State) (pipeline : Pipeline) (state : State) :
    Pipeline × State :=
  match _found : pipeline.take? with
  | none => (pipeline, state)
  | some (.finish, later) => workAll worker later state
  | some (.payload raw, later) => workAll worker later (worker.process pipeline.event state raw)
termination_by pipeline.queue.length
decreasing_by all_goals exact Pipeline.length_queue_of_take? _found

/-- Closes a pipeline and lets the worker finish. -/
def shutdown (worker : Worker Value State) (pipeline : Pipeline) (state : State) :
    Pipeline × State :=
  worker.workAll pipeline.close state

/-- The counts and the values that a worker has handled, in order. -/
structure Record (Value : Type) where
  tally : Tally
  handled : List Value

/-- A worker that records the values it handles. -/
def recorder (decode : Octets → Except Ledger.DecodeError Value) :
    Worker Value (Record Value) where
  decode := decode
  count record sample amount := ⟨record.tally.add sample amount, record.handled⟩
  handle record value := ⟨record.tally, record.handled ++ [value]⟩

end Worker

end CashHerald.Hub
