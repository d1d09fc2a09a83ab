import CashHerald.Hub.Command
import CashHerald.Hub.Dispatch
import CashHerald.Hub.Pipeline

/-!
The relay: a hub with a pipeline for blocks and one for transactions. Payloads are submitted, and
each worker takes one at a time, decodes it and announces it.
-/

namespace CashHerald.Hub

structure Relay where
  hub : Hub
  blocks : Pipeline
  transactions : Pipeline
  deriving DecidableEq, Repr

namespace Relay

def start (network : String) : Relay :=
  ⟨.start network, .start .block, .start .transaction⟩

/-- The pipeline of an event. -/
def pipeline (relay : Relay) : FeedEvent → Pipeline
  | .block => relay.blocks
  | .transaction => relay.transactions

/-- The relay with another hub. -/
def withHub (relay : Relay) (hub : Hub) : Relay :=
  ⟨hub, relay.blocks, relay.transactions⟩

/-- The relay with another pipeline for an event. -/
def withPipeline (relay : Relay) (event : FeedEvent) (pipeline : Pipeline) : Relay :=
  match event with
  | .block => ⟨relay.hub, pipeline, relay.transactions⟩
  | .transaction => ⟨relay.hub, relay.blocks, pipeline⟩

/-- A hub together with the connections of its clients. -/
abbrev Floor := Hub × List Session.Connection

/-- Counts in the hub. -/
def countOn (floor : Floor) (sample : Sample) (amount : Int) : Floor :=
  (floor.1.count sample amount, floor.2)

/-- The worker that announces blocks. -/
def blockWorker : Worker Ledger.Block Floor where
  decode := Ledger.Block.decode
  count := countOn
  handle floor block := floor.1.announceBlock floor.2 block

/-- The worker that announces transactions. -/
def transactionWorker : Worker Ledger.Transaction Floor where
  decode := Ledger.Transaction.decode
  count := countOn
  handle floor transaction := floor.1.announceTransaction floor.2 transaction

/-- Submits a payload and tells whether it was queued. -/
def submit (relay : Relay) (event : FeedEvent) (raw : Octets) : Relay × Bool :=
  match (relay.pipeline event).submit raw with
  | (_, false) => (relay, false)
  | (later, true) =>
    ((relay.withPipeline event later).withHub (relay.hub.count (.queueDepth event) 1), true)

/-- The relay with a pipeline and a hub after some work. -/
def after (relay : Relay) (event : FeedEvent) (result : Pipeline × Floor) :
    Relay × List Session.Connection :=
  ((relay.withPipeline event result.1).withHub result.2.1, result.2.2)

/-- The worker of an event takes one job, if there is one. -/
def work? (relay : Relay) (connections : List Session.Connection) (event : FeedEvent) :
    Option (Relay × List Session.Connection) :=
  match event with
  | .block => (blockWorker.work? relay.blocks (relay.hub, connections)).map (relay.after .block)
  | .transaction =>
    (transactionWorker.work? relay.transactions (relay.hub, connections)).map
      (relay.after .transaction)

/-- The worker of an event takes all that is queued. -/
def workAll (relay : Relay) (connections : List Session.Connection) (event : FeedEvent) :
    Relay × List Session.Connection :=
  match event with
  | .block => relay.after .block (blockWorker.workAll relay.blocks (relay.hub, connections))
  | .transaction =>
    relay.after .transaction
      (transactionWorker.workAll relay.transactions (relay.hub, connections))

/-- Closes a pipeline behind what is queued. -/
def close (relay : Relay) (event : FeedEvent) : Relay :=
  relay.withPipeline event (relay.pipeline event).close

/-- Closes both pipelines, one after the other, and lets each finish its work. -/
def shutdown (relay : Relay) (connections : List Session.Connection) :
    Relay × List Session.Connection :=
  let (later, changed) := (relay.close .block).workAll connections .block
  (later.close .transaction).workAll changed .transaction

/-- The relay's reactions to the events of its clients are those of its hub. -/
def handler : Session.Handler Relay := fun relay client event =>
  (Hub.handler relay.hub client event).map relay.withHub

end Relay

end CashHerald.Hub
