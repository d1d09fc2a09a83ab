import CashHerald.Proofs.Hub.Attendance
import CashHerald.Proofs.Hub.Removal

/-!
The gauges of subscriptions. Clients are tracked and forgotten, subscribe and unsubscribe, in any
order and whether they are tracked or not, and each of these may move a gauge. Main statement: the
gauge of a topic has moved by the number of subscriptions to it that all clients in the registry
hold.
-/

namespace CashHerald.Hub

namespace Registry

/-- The subscriptions to a topic that one client holds. -/
def heldOn (registry : Registry) (topic : Topic) (client : Nat) : Nat :=
  (registry.held client).countP (·.topic = topic)

/-- The subscriptions to a topic that all clients in the registry hold. -/
def heldByAll (registry : Registry) (topic : Topic) : Nat :=
  (registry.clients.flatMap registry.held).countP (·.topic = topic)

section HeldByAll

variable {before after : Registry} {client : Nat}

theorem heldByAll_eq_sum (registry : Registry) (topic : Topic) :
    registry.heldByAll topic = (registry.clients.map (registry.heldOn topic)).sum :=
  List.countP_flatMap

theorem mem_clients_of_held {subscriptions : List Subscription}
    (held : before.subscriptions? client = some subscriptions) : client ∈ before.clients := by
  by_contra unknown
  rw [subscriptions?_eq_none_iff.mpr unknown] at held
  cases held

theorem heldOn_of_held {subscriptions : List Subscription}
    (held : before.subscriptions? client = some subscriptions) (topic : Topic) :
    before.heldOn topic client = subscriptions.countP (·.topic = topic) := by
  rw [heldOn, Registry.held, held, Option.getD_some]

theorem heldOn_of_notMem (unknown : client ∉ before.clients) (topic : Topic) :
    before.heldOn topic client = 0 := by
  rw [heldOn, held, subscriptions?_eq_none_iff.mpr unknown]
  rfl

/-- Other clients hold what they held. -/
theorem map_heldOn_of_confined (confined : Confined client before after) (topic : Topic)
    {others : List Nat} (apart : client ∉ others) :
    others.map (after.heldOn topic) = others.map (before.heldOn topic) := by
  refine List.map_congr_left fun other mem => ?_
  have differs : other ≠ client := ne_of_mem_of_not_mem mem apart
  rw [heldOn, held, confined.others differs]
  rfl

/-- What one client holds more or less, all clients hold more or less. -/
theorem heldByAll_of_same_clients (confined : Confined client before after)
    (same : after.clients = before.clients) (distinct : before.clients.Nodup)
    (known : client ∈ before.clients) (topic : Topic) :
    after.heldByAll topic + before.heldOn topic client =
      before.heldByAll topic + after.heldOn topic client := by
  have others := map_heldOn_of_confined confined topic distinct.not_mem_erase
  have first := List.sum_map_erase (before.heldOn topic) known
  have second := List.sum_map_erase (after.heldOn topic) known
  rw [others] at second
  rw [heldByAll_eq_sum, heldByAll_eq_sum, same]
  omega

/-- A client that comes in holds nothing yet, and one that is in already keeps what it holds. -/
theorem heldByAll_track (registry : Registry) (client : Nat) (topic : Topic) :
    (registry.track client).heldByAll topic = registry.heldByAll topic := by
  by_cases known : client ∈ registry.clients
  · rw [track, if_pos (isTracked_iff.mpr known)]
  · have nothing : (registry.track client).heldOn topic client = 0 := by
      have holds : (registry.track client).held client = registry.held client := by
        rw [held, subscriptions?_track_self, Option.getD_some]
      rw [heldOn, holds]
      exact heldOn_of_notMem known topic
    rw [heldByAll_eq_sum, heldByAll_eq_sum, clients_track known, List.map_append, List.map_singleton,
      nothing, map_heldOn_of_confined (confined_track registry client) topic known,
      List.sum_append, List.sum_singleton, Nat.add_zero]

/-- A client that is forgotten takes with it what it holds. -/
theorem heldByAll_untrack {registry : Registry} (distinct : registry.clients.Nodup)
    (known : client ∈ registry.clients) (topic : Topic) :
    (registry.untrack client).heldByAll topic + registry.heldOn topic client =
      registry.heldByAll topic := by
  have others := map_heldOn_of_confined (confined_untrack registry client) topic
    distinct.not_mem_erase
  have whole := List.sum_map_erase (registry.heldOn topic) known
  rw [heldByAll_eq_sum, heldByAll_eq_sum, clients_untrack distinct, others]
  omega

end HeldByAll

end Registry

/-- A count on the gauge of one topic leaves the gauges of the others alone. -/
theorem get_count_topic (hub : Hub) (counted topic : Topic) (amount : Int) :
    (hub.count (.subscriptions counted) amount).tally.get (.subscriptions topic) =
      hub.tally.get (.subscriptions topic) + if counted = topic then amount else 0 := by
  rw [get_count]
  simp only [Sample.subscriptions.injEq, eq_comm]

/-- Taking subscriptions off the gauges takes off each topic as many as are subscribed to it. -/
theorem get_foldl_count (subscriptions : List Subscription) (hub : Hub) (topic : Topic) :
    (subscriptions.foldl
      (fun rest subscription => rest.count (.subscriptions subscription.topic) (-1)) hub).tally.get
        (.subscriptions topic) =
      hub.tally.get (.subscriptions topic) - subscriptions.countP (·.topic = topic) := by
  induction subscriptions generalizing hub with
  | nil => exact (Int.sub_zero _).symm
  | cons subscription rest inductionHypothesis =>
    rw [List.foldl_cons, inductionHypothesis, get_count_topic, List.countP_cons]
    simp only [decide_eq_true_eq]
    split <;> omega

/-- What is removed from a client's subscriptions is the first one that a query matches. -/
theorem countP_eraseP {held : List Subscription} {query removed : Subscription}
    (found : held.find? (·.agrees query) = some removed) (topic : Topic) :
    (held.eraseP (·.agrees query)).countP (·.topic = topic) +
        (if removed.topic = topic then 1 else 0) =
      held.countP (·.topic = topic) := by
  obtain ⟨agrees, earlier, later, rfl, missed⟩ := List.find?_eq_some_iff_append.mp found
  have others : ∀ other ∈ earlier, other.agrees query = false := by
    intro other mem
    simpa using missed other mem
  rw [eraseP_of_first others agrees, List.countP_append, List.countP_append, List.countP_cons]
  simp only [decide_eq_true_eq]
  omega

/-- A call that changes who is in the registry or what a client holds, for any client. -/
inductive RegistryCall where
  | track (client : Nat)
  | untrack (client : Nat)
  | subscribe (client : Nat) (subscription : Subscription)
  | unsubscribe (client : Nat) (query : Subscription)
  deriving DecidableEq, Repr

/-- The hub after a call. -/
def call (hub : Hub) : RegistryCall → Hub
  | .track client => hub.addClient client
  | .untrack client => (hub.removeClient client).1
  | .subscribe client subscription => (hub.subscribe client subscription).1
  | .unsubscribe client query => (hub.unsubscribe client query).1

/-- The hub after calls, in their order. -/
def callAll (hub : Hub) (calls : List RegistryCall) : Hub :=
  calls.foldl call hub

/-- Every client is in the registry once, and since the start each gauge has moved by what all
clients hold. -/
structure Gauged (start hub : Hub) : Prop where
  distinct : hub.registry.clients.Nodup
  gauge : ∀ topic, hub.tally.get (.subscriptions topic) =
    start.tally.get (.subscriptions topic) + hub.registry.heldByAll topic

namespace Gauged

variable {start hub : Hub}

theorem track (gauged : Gauged start hub) (client : Nat) : Gauged start (hub.addClient client) where
  distinct := (hub.registry.confined_track client).distinct gauged.distinct
  gauge := by
    intro topic
    rw [addClient, withRegistry, Registry.heldByAll_track]
    exact gauged.gauge topic

theorem untrack (gauged : Gauged start hub) (client : Nat) :
    Gauged start (hub.removeClient client).1 := by
  refine ⟨(hub.confined_removeClient client).registry.distinct gauged.distinct, fun topic => ?_⟩
  unfold removeClient
  cases known : hub.registry.subscriptions? client with
  | none => exact gauged.gauge topic
  | some subscriptions =>
    have holds := Registry.heldOn_of_held known topic
    have left := Registry.heldByAll_untrack gauged.distinct (Registry.mem_clients_of_held known) topic
    have before := gauged.gauge topic
    -- The gauges are moved when the client is out already, and that leaves the registry alone.
    obtain ⟨-, registry⟩ :=
      kept_foldl_count subscriptions (hub.withRegistry (hub.registry.untrack client))
    simp only [get_foldl_count, registry]
    change hub.tally.get (.subscriptions topic) - _ =
      _ + ((hub.registry.untrack client).heldByAll topic : Int)
    omega

/-- A change of what one client holds is gauged if each gauge moves by as much. -/
theorem of_held {later : Hub} {client : Nat} {held now : List Subscription}
    (gauged : Gauged start hub) (confined : Registry.Confined client hub.registry later.registry)
    (same : later.registry.clients = hub.registry.clients)
    (before : hub.registry.subscriptions? client = some held)
    (after : later.registry.subscriptions? client = some now)
    (moved : ∀ topic, later.tally.get (.subscriptions topic) + held.countP (·.topic = topic) =
      hub.tally.get (.subscriptions topic) + now.countP (·.topic = topic)) :
    Gauged start later := by
  refine ⟨confined.distinct gauged.distinct, fun topic => ?_⟩
  have total := Registry.heldByAll_of_same_clients confined same gauged.distinct
    (Registry.mem_clients_of_held before) topic
  rw [Registry.heldOn_of_held before, Registry.heldOn_of_held after] at total
  have gauge := gauged.gauge topic
  have change := moved topic
  omega

theorem subscribe (gauged : Gauged start hub) (client : Nat) (subscription : Subscription) :
    Gauged start (hub.subscribe client subscription).1 := by
  cases known : hub.registry.subscriptions? client with
  | none =>
    have ignored : (hub.subscribe client subscription).1 = hub := by
      simp [Hub.subscribe, Registry.isTracked, known]
    rw [ignored]
    exact gauged
  | some held =>
    have now : (hub.subscribe client subscription).1.registry.subscriptions? client =
        some (held ++ [subscription]) := by
      rw [subscriptions?_subscribe, known, Option.map_some]
    refine gauged.of_held (hub.confined_subscribe client subscription).registry
      (clients_subscribe hub client subscription) known now fun topic => ?_
    have tracked : hub.registry.isTracked client = true := by simp [Registry.isTracked, known]
    rw [Hub.subscribe, if_pos tracked, get_count_topic, List.countP_append, List.countP_singleton]
    simp only [decide_eq_true_eq, withRegistry]
    split <;> omega

theorem unsubscribe (gauged : Gauged start hub) (client : Nat) (query : Subscription) :
    Gauged start (hub.unsubscribe client query).1 := by
  cases found : hub.registry.firstMatch? client query with
  | none =>
    have ignored : (hub.unsubscribe client query).1 = hub := by simp [Hub.unsubscribe, found]
    rw [ignored]
    exact gauged
  | some removed =>
    obtain ⟨held, known, first⟩ := Option.bind_eq_some_iff.mp found
    have now : (hub.unsubscribe client query).1.registry.subscriptions? client =
        some (held.eraseP (·.agrees query)) := by
      rw [(hub.unsubscribe_eq client query).1, known, Option.map_some]
    refine gauged.of_held (hub.confined_unsubscribe client query).registry
      (clients_unsubscribe hub client query) known now fun topic => ?_
    have left := countP_eraseP first topic
    simp only [Hub.unsubscribe, found, get_count_topic, withRegistry]
    by_cases same : removed.topic = topic
    · rw [if_pos same] at left ⊢
      omega
    · rw [if_neg same] at left ⊢
      omega

/-- A call keeps the gauges exact. -/
theorem call (gauged : Gauged start hub) (made : RegistryCall) : Gauged start (hub.call made) := by
  cases made with
  | track client => exact gauged.track client
  | untrack client => exact gauged.untrack client
  | subscribe client subscription => exact gauged.subscribe client subscription
  | unsubscribe client query => exact gauged.unsubscribe client query

theorem callAll (gauged : Gauged start hub) (calls : List RegistryCall) :
    Gauged start (hub.callAll calls) := by
  induction calls generalizing hub with
  | nil => exact gauged
  | cons made rest inductionHypothesis => exact inductionHypothesis (gauged.call made)

end Gauged

theorem gauged_of_empty (network : String) (tally : Tally) :
    Gauged ⟨network, .empty, tally⟩ ⟨network, .empty, tally⟩ where
  distinct := List.nodup_nil
  gauge := fun _ => (Int.add_zero _).symm

/-- From an empty registry on, after any calls for any clients, the gauge of a topic has moved by the
number of subscriptions to it that all clients in the registry hold. So it has not gone down, and
without clients it is where it was. -/
theorem gauges_exact (network : String) (tally : Tally) (calls : List RegistryCall)
    (topic : Topic) :
    let later := callAll ⟨network, .empty, tally⟩ calls
    let change := later.tally.get (.subscriptions topic) - tally.get (.subscriptions topic)
    change = later.registry.heldByAll topic ∧ 0 ≤ change ∧
      (later.registry.clients = [] → change = 0) := by
  intro later change
  have exact : change = later.registry.heldByAll topic := by
    have gauge := ((gauged_of_empty network tally).callAll calls).gauge topic
    exact Int.sub_eq_iff_eq_add'.mpr gauge
  refine ⟨exact, ?_, fun alone => ?_⟩
  · rw [exact]
    exact Int.natCast_nonneg _
  · rw [exact, Registry.heldByAll, alone]
    rfl

end CashHerald.Hub
