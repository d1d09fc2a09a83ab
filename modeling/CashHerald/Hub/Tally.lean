import CashHerald.Hub.Subscription

/-!
Counts of what has happened, by sample. Main statement: adding to a sample changes that sample only.
-/

namespace CashHerald.Hub

/-- The events that a feed brings. -/
inductive FeedEvent where
  | block
  | transaction
  deriving DecidableEq, Repr

def FeedEvent.name : FeedEvent → String
  | .block => "block"
  | .transaction => "transaction"

/-- A sample of the metrics. -/
inductive Sample where
  | connections
  | subscriptions (topic : Topic)
  | decoded (event : FeedEvent)
  | decodeFailures (event : FeedEvent)
  | broadcasts (event : FeedEvent)
  | broadcastFailures (event : FeedEvent)
  | queueDepth (event : FeedEvent)
  | controlMessages (operation : String)
  deriving DecidableEq, Repr

namespace Sample

/-- A metric with one label. -/
def labelled (metric label value : String) : String :=
  metric ++ "\x7b" ++ label ++ "=\"" ++ value ++ "\"\x7d"

/-- The name of a sample with its label. -/
def name : Sample → String
  | .connections => "bchsock_connections_active"
  | .subscriptions topic => labelled "bchsock_subscriptions_active" "type" topic.name
  | .decoded event => labelled "bchsock_events_decoded_total" "event" event.name
  | .decodeFailures event => labelled "bchsock_decode_failures_total" "event" event.name
  | .broadcasts event => labelled "bchsock_broadcasts_total" "event" event.name
  | .broadcastFailures event => labelled "bchsock_broadcast_failures_total" "event" event.name
  | .queueDepth event => labelled "bchsock_pipeline_queue_depth" "event" event.name
  | .controlMessages operation => labelled "bchsock_control_messages_total" "op" operation

end Sample

/-- The samples that have been counted, each with its value. -/
structure Tally where
  counts : List (Sample × Int)
  deriving DecidableEq, Repr

namespace Tally

def empty : Tally :=
  ⟨[]⟩

/-- The value of a sample, zero if it has not been counted. -/
def get (tally : Tally) (sample : Sample) : Int :=
  ((tally.counts.find? (·.1 = sample)).map Prod.snd).getD 0

/-- Adds to the value of a sample in a list. -/
def addTo (sample : Sample) (amount : Int) : List (Sample × Int) → List (Sample × Int)
  | [] => [(sample, amount)]
  | (found, value) :: rest =>
    if found = sample then (found, value + amount) :: rest
    else (found, value) :: addTo sample amount rest

/-- Adds to the value of a sample. -/
def add (tally : Tally) (sample : Sample) (amount : Int) : Tally :=
  ⟨addTo sample amount tally.counts⟩

/-- The samples whose value is not zero. -/
def changed (tally : Tally) : List (Sample × Int) :=
  tally.counts.filter (·.2 ≠ 0)

/-- Adding to a sample changes that sample only. -/
theorem get_add (tally : Tally) (sample other : Sample) (amount : Int) :
    (tally.add sample amount).get other =
      tally.get other + (if other = sample then amount else 0) := by
  simp only [get, add]
  induction tally.counts with
  | nil =>
    by_cases same : other = sample
    · simp [addTo, same]
    · simp [addTo, same, Ne.symm same]
  | cons pair rest inductionHypothesis =>
    obtain ⟨found, value⟩ := pair
    by_cases here : found = sample
    · by_cases same : other = sample
      · simp [addTo, here, same]
      · simp [addTo, here, same, Ne.symm same]
    · by_cases wanted : found = other
      · have apart : other ≠ sample := wanted ▸ here
        simp [addTo, wanted, apart]
      · simpa [addTo, here, wanted] using inductionHypothesis

end Tally

end CashHerald.Hub
