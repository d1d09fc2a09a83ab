import CashHerald.Hub.Relay
import CashHerald.Proofs.Hub.Delivery

/-!
What the events of one client can change. Main statements: the hub's reaction to an event of a
client leaves the subscriptions of all others as they are, and it depends on the network and on the
client's own subscriptions only.
-/

namespace CashHerald.Hub

namespace Registry

variable {registry : Registry} {client : Nat}

/-- A change of the registry that concerns one client. -/
structure Confined (client : Nat) (before after : Registry) : Prop where
  others : ∀ {other}, other ≠ client → after.subscriptions? other = before.subscriptions? other
  distinct : before.clients.Nodup → after.clients.Nodup
  clients : ∀ {tracked}, tracked ∈ after.clients → tracked ∈ before.clients ∨ tracked = client

theorem Confined.refl (client : Nat) (registry : Registry) : Confined client registry registry :=
  ⟨fun _ => rfl, id, .inl⟩

theorem isTracked_iff : registry.isTracked client = true ↔ client ∈ registry.clients := by
  simp [isTracked, subscriptions?, clients]

theorem subscriptions?_eq_none_iff :
    registry.subscriptions? client = none ↔ client ∉ registry.clients := by
  simp [subscriptions?, clients]

/-- A client that is tracked has the subscriptions that it had, or none. -/
theorem subscriptions?_track_self (registry : Registry) (client : Nat) :
    (registry.track client).subscriptions? client = some (registry.held client) := by
  unfold track
  split
  · rename_i tracked
    obtain ⟨subscriptions, known⟩ := Option.isSome_iff_exists.mp tracked
    simp only [held, known, Option.getD_some]
  · rename_i untracked
    rw [isTracked_iff] at untracked
    have unknown := subscriptions?_eq_none_iff.mpr untracked
    have missing : registry.entries.find? (·.client = client) = none := by
      simpa [subscriptions?] using unknown
    rw [held, unknown]
    simp [subscriptions?, List.find?_append, missing]

theorem confined_track (registry : Registry) (client : Nat) :
    Confined client registry (registry.track client) := by
  unfold track
  split
  · exact .refl client registry
  · rename_i untracked
    rw [isTracked_iff] at untracked
    refine ⟨fun {other} differs => ?_, fun distinct => ?_, fun {tracked} mem => ?_⟩
    · simp [subscriptions?, List.find?_append, Ne.symm differs]
    · simpa [clients, List.nodup_append] using ⟨distinct, fun entry mem same =>
        untracked (List.mem_map.mpr ⟨entry, mem, same⟩)⟩
    · simpa [clients] using mem

theorem confined_untrack (registry : Registry) (client : Nat) :
    Confined client registry (registry.untrack client) := by
  have fewer : (registry.untrack client).clients.Sublist registry.clients :=
    List.filter_sublist.map _
  refine ⟨fun {other} differs => ?_, fewer.nodup, fun mem => .inl (fewer.subset mem)⟩
  simp only [subscriptions?, untrack, List.find?_filter]
  congr 2
  funext entry
  by_cases same : entry.client = other <;> simp [same, differs]

theorem clients_update (registry : Registry) (client : Nat)
    (change : List Subscription → List Subscription) :
    (registry.update client change).clients = registry.clients := by
  simp only [clients, update, List.map_map]
  refine List.map_congr_left fun entry _ => ?_
  simp only [Function.comp_apply]
  split
  · rename_i same
    exact same.symm
  · rfl

theorem confined_update (registry : Registry) (client : Nat)
    (change : List Subscription → List Subscription) :
    Confined client registry (registry.update client change) := by
  refine ⟨registry.subscriptions?_update_other change, ?_, ?_⟩
  · rw [clients_update]
    exact id
  · rw [clients_update]
    exact .inl

end Registry

/-- A change of the hub that concerns one client, besides the counts. -/
structure Confined (client : Nat) (before after : Hub) : Prop where
  network : after.network = before.network
  registry : Registry.Confined client before.registry after.registry

/-- Two hubs that look the same to two clients, one in each. -/
structure Alike (client other : Nat) (first second : Hub) : Prop where
  network : first.network = second.network
  subscriptions : first.registry.subscriptions? client = second.registry.subscriptions? other

theorem Alike.held {client other : Nat} {first second : Hub}
    (alike : Alike client other first second) :
    first.registry.held client = second.registry.held other := by
  simp only [Registry.held, alike.subscriptions]

/-- Taking subscriptions off the gauges changes counts only. -/
theorem kept_foldl_count (subscriptions : List Subscription) (hub : Hub) :
    let later := subscriptions.foldl
      (fun rest subscription => rest.count (.subscriptions subscription.topic) (-1)) hub
    later.network = hub.network ∧ later.registry = hub.registry := by
  induction subscriptions generalizing hub with
  | nil => exact ⟨rfl, rfl⟩
  | cons subscription rest inductionHypothesis =>
    exact inductionHypothesis (hub.count (.subscriptions subscription.topic) (-1))

section Operations

variable (hub : Hub) (client : Nat)

theorem confined_removeClient : Confined client hub (hub.removeClient client).1 := by
  unfold removeClient
  split
  · exact ⟨rfl, .refl client hub.registry⟩
  · rename_i subscriptions known
    obtain ⟨network, registry⟩ := kept_foldl_count subscriptions
      (hub.withRegistry (hub.registry.untrack client))
    exact ⟨network, registry ▸ hub.registry.confined_untrack client⟩

/-- A client that has been removed is not tracked. -/
theorem subscriptions?_removeClient :
    (hub.removeClient client).1.registry.subscriptions? client = none := by
  unfold removeClient
  split
  · assumption
  · rename_i subscriptions known
    obtain ⟨-, registry⟩ := kept_foldl_count subscriptions
      (hub.withRegistry (hub.registry.untrack client))
    exact (congrArg (Registry.subscriptions? · client) registry).trans
      (hub.registry.subscriptions?_untrack_self client)

theorem confined_subscribe (subscription : Subscription) :
    Confined client hub (hub.subscribe client subscription).1 := by
  unfold subscribe
  split
  · exact ⟨rfl, hub.registry.confined_update client (· ++ [subscription])⟩
  · exact ⟨rfl, .refl client hub.registry⟩

/-- A client that is tracked holds one subscription more. -/
theorem subscriptions?_subscribe (subscription : Subscription) :
    (hub.subscribe client subscription).1.registry.subscriptions? client =
      (hub.registry.subscriptions? client).map (· ++ [subscription]) := by
  unfold subscribe
  split
  · exact hub.registry.subscriptions?_update_self client _
  · rename_i untracked
    have unknown : hub.registry.subscriptions? client = none := by
      simpa [Registry.isTracked] using untracked
    rw [unknown]
    rfl

theorem confined_unsubscribe (query : Subscription) :
    Confined client hub (hub.unsubscribe client query).1 := by
  unfold unsubscribe
  split
  · exact ⟨rfl, .refl client hub.registry⟩
  · exact ⟨rfl, hub.registry.confined_update client _⟩

/-- The first subscription that a query matches is removed, if there is one. -/
theorem unsubscribe_eq (query : Subscription) :
    (hub.unsubscribe client query).1.registry.subscriptions? client =
        (hub.registry.subscriptions? client).map (List.eraseP (·.agrees query)) ∧
      (hub.unsubscribe client query).2 = (hub.registry.held client).any (·.agrees query) := by
  unfold unsubscribe Registry.firstMatch? Registry.held
  rcases known : hub.registry.subscriptions? client with _ | subscriptions
  · exact ⟨known, rfl⟩
  rcases found : subscriptions.find? (·.agrees query) with _ | removed
  · have nowhere := List.find?_eq_none.mp found
    simp only [Option.bind_some, found, known, Option.map_some, Option.getD_some]
    refine ⟨by rw [List.eraseP_of_forall_not nowhere], ?_⟩
    simpa using nowhere
  · simp only [Option.bind_some, found, Option.map_some, Option.getD_some]
    refine ⟨(hub.registry.subscriptions?_update_self client _).trans (by rw [known]; rfl), ?_⟩
    exact (List.any_eq_true.mpr ⟨removed, List.mem_of_find?_eq_some found,
      List.find?_some found⟩).symm

/-- A command to unsubscribe tells whether there was something to remove. -/
theorem execute_of_unsubscribe {command : Command}
    (removes : command.operation.action = .unsubscribe) :
    hub.execute client command =
      ((hub.unsubscribe client command.subscription).1,
        if (hub.unsubscribe client command.subscription).2 then .done command.operation
        else .failed command.operation) := by
  unfold execute
  rw [removes]
  rcases hub.unsubscribe client command.subscription with ⟨later, _ | _⟩ <;> rfl

theorem confined_execute (command : Command) :
    Confined client hub (hub.execute client command).1 := by
  cases action : command.operation.action with
  | subscribe =>
    unfold execute
    rw [action]
    exact hub.confined_subscribe client command.subscription
  | unsubscribe =>
    rw [execute_of_unsubscribe hub client action]
    exact hub.confined_unsubscribe client command.subscription

theorem confined_answer (text : String) : Confined client hub (hub.answer client text).1 := by
  unfold answer
  split
  · exact ⟨rfl, .refl client hub.registry⟩
  · rename_i command read
    have executed := confined_execute (hub.count (.controlMessages command.operation.name) 1) client
      command
    exact ⟨executed.network, executed.registry⟩

/-- A client that goes away is removed, and nothing is done on its connection. -/
theorem run_handler_closed (connection : Session.Connection) :
    ∃ later, (Hub.handler hub client .closed).run connection = (connection, later) ∧
      later.network = (hub.removeClient client).1.network ∧
      later.registry = (hub.removeClient client).1.registry := by
  unfold Hub.handler
  rcases hub.removeClient client with ⟨later, _ | _⟩
  · exact ⟨later, rfl, rfl, rfl⟩
  · exact ⟨later.count .connections (-1), rfl, rfl, rfl⟩

/-- An event of a client changes nothing for the others. -/
theorem confined_handler (event : Session.Event) (connection : Session.Connection) :
    Confined client hub ((Hub.handler hub client event).run connection).2 := by
  cases event with
  | opened => exact ⟨rfl, hub.registry.confined_track client⟩
  | text content => exact hub.confined_answer client content
  | closed =>
    obtain ⟨later, same, network, registry⟩ := hub.run_handler_closed client connection
    obtain ⟨kept, confined⟩ := hub.confined_removeClient client
    rw [same]
    exact ⟨network.trans kept, registry ▸ confined⟩
  | _ => exact ⟨rfl, .refl client hub.registry⟩

end Operations

namespace Alike

variable {client other : Nat} {first second : Hub}

theorem count (alike : Alike client other first second) (sample another : Sample)
    (amount more : Int) :
    Alike client other (first.count sample amount) (second.count another more) :=
  ⟨alike.network, alike.subscriptions⟩

/-- A command is carried out in the same way. -/
theorem execute (alike : Alike client other first second) (command : Command) :
    Alike client other (first.execute client command).1 (second.execute other command).1 ∧
      (first.execute client command).2 = (second.execute other command).2 := by
  have network := (first.confined_execute client command).network.trans
    (alike.network.trans (second.confined_execute other command).network.symm)
  cases action : command.operation.action with
  | subscribe =>
    refine ⟨⟨network, ?_⟩, ?_⟩ <;> unfold Hub.execute <;> rw [action]
    simp only [subscriptions?_subscribe, alike.subscriptions]
  | unsubscribe =>
    obtain ⟨left, found⟩ := first.unsubscribe_eq client command.subscription
    obtain ⟨otherLeft, otherFound⟩ := second.unsubscribe_eq other command.subscription
    refine ⟨⟨network, ?_⟩, ?_⟩ <;>
      rw [execute_of_unsubscribe first client action, execute_of_unsubscribe second other action]
    · rw [left, otherLeft, alike.subscriptions]
    · rw [found, otherFound, alike.held]

/-- A control message gets the same answer. -/
theorem answer (alike : Alike client other first second) (text : String) :
    Alike client other (first.answer client text).1 (second.answer other text).1 ∧
      (first.answer client text).2 = (second.answer other text).2 := by
  unfold Hub.answer
  rw [alike.network]
  split
  · exact ⟨⟨alike.network, alike.subscriptions⟩, rfl⟩
  · exact (alike.count _ _ 1 1).execute _

/-- An event gets the same reaction. -/
theorem handler (alike : Alike client other first second) (event : Session.Event)
    (connection : Session.Connection) :
    ((Hub.handler first client event).run connection).1 =
        ((Hub.handler second other event).run connection).1 ∧
      Alike client other ((Hub.handler first client event).run connection).2
        ((Hub.handler second other event).run connection).2 := by
  cases event with
  | opened =>
    refine ⟨rfl, alike.network, ?_⟩
    have tracked : (first.registry.track client).subscriptions? client =
        (second.registry.track other).subscriptions? other := by
      rw [Registry.subscriptions?_track_self, Registry.subscriptions?_track_self, alike.held]
    exact tracked
  | text content =>
    obtain ⟨later, reply⟩ := alike.answer content
    refine ⟨?_, later⟩
    exact congrArg (fun reply : Reply => (connection.sendText reply.text).1) reply
  | closed =>
    obtain ⟨later, same, network, registry⟩ := first.run_handler_closed client connection
    obtain ⟨otherLater, otherSame, otherNetwork, otherRegistry⟩ :=
      second.run_handler_closed other connection
    rw [same, otherSame]
    refine ⟨rfl, ?_, ?_⟩
    · rw [network, otherNetwork, (first.confined_removeClient client).network, alike.network,
        (second.confined_removeClient other).network]
    · rw [registry, otherRegistry, subscriptions?_removeClient, subscriptions?_removeClient]
  | _ => exact ⟨rfl, alike⟩

end Alike

end CashHerald.Hub
