import CashHerald.Hub.Registry
import CashHerald.Hub.Tally

/-!
The hub: the network whose addresses it shows, the clients it tracks, and its counts. Every change
to the registry keeps the gauges of subscriptions.
-/

namespace CashHerald

structure Hub where
  network : String
  registry : Hub.Registry
  tally : Hub.Tally
  deriving DecidableEq, Repr

namespace Hub

/-- A hub without clients. -/
def start (network : String) : Hub :=
  ⟨network, .empty, .empty⟩

/-- Counts a sample. -/
def count (hub : Hub) (sample : Sample) (amount : Int) : Hub :=
  ⟨hub.network, hub.registry, hub.tally.add sample amount⟩

/-- The hub with another registry. -/
def withRegistry (hub : Hub) (registry : Registry) : Hub :=
  ⟨hub.network, registry, hub.tally⟩

/-- Tracks a client. -/
def addClient (hub : Hub) (client : Nat) : Hub :=
  hub.withRegistry (hub.registry.track client)

/-- Forgets a client and takes its subscriptions off the gauges; tells whether it was tracked. -/
def removeClient (hub : Hub) (client : Nat) : Hub × Bool :=
  match hub.registry.subscriptions? client with
  | none => (hub, false)
  | some subscriptions =>
    (subscriptions.foldl
      (fun rest subscription => rest.count (.subscriptions subscription.topic) (-1))
      (hub.withRegistry (hub.registry.untrack client)), true)

/-- Adds a subscription of a client; tells whether the client is tracked. -/
def subscribe (hub : Hub) (client : Nat) (subscription : Subscription) : Hub × Bool :=
  if hub.registry.isTracked client then
    ((hub.withRegistry (hub.registry.subscribe client subscription)).count
      (.subscriptions subscription.topic) 1, true)
  else (hub, false)

/-- Removes the first subscription of a client that a query matches; tells whether there is one. -/
def unsubscribe (hub : Hub) (client : Nat) (query : Subscription) : Hub × Bool :=
  match hub.registry.firstMatch? client query with
  | none => (hub, false)
  | some removed =>
    ((hub.withRegistry (hub.registry.unsubscribe client query)).count
      (.subscriptions removed.topic) (-1), true)

end Hub

end CashHerald
