import CashHerald.Proofs.Hub.Feed
import CashHerald.Proofs.Session.Guests

/-!
Who is in the registry. A client comes in when the relay is told that its connection has opened, and
goes when the relay is told that it has closed; nothing else that the relay is told of and nothing
that its workers do changes who is in. Main statements: the gauge of connections goes on counting
the clients in the registry, and a worker touches only the connections of these.
-/

namespace CashHerald

namespace Session

namespace Connection.Persists

theorem hear (text : String) (connection : Connection) :
    connection.Persists (connection.hear text) := by
  have sent := send connection .text (Utf8.encode text)
  unfold Connection.hear sendText
  split <;> rename_i same <;> rw [same] at sent
  · exact sent
  · exact sent.trans (close _ _)

theorem iterate_hear (text : String) (times : Nat) (connection : Connection) :
    connection.Persists ((Connection.hear text)^[times] connection) := by
  induction times with
  | zero => exact refl connection
  | succ times inductionHypothesis =>
    rw [Function.iterate_succ_apply']
    exact inductionHypothesis.trans (hear text _)

end Connection.Persists

end Session

namespace Hub

namespace Registry

theorem clients_track {registry : Registry} {client : Nat} (new : client ∉ registry.clients) :
    (registry.track client).clients = registry.clients ++ [client] := by
  have untracked : ¬registry.isTracked client = true := mt isTracked_iff.mp new
  simp only [track, untracked, if_false, clients, List.map_append, List.map_singleton,
    Bool.false_eq_true]

theorem clients_untrack {registry : Registry} (distinct : registry.clients.Nodup) (client : Nat) :
    (registry.untrack client).clients = registry.clients.erase client := by
  rw [distinct.erase_eq_filter]
  simp only [untrack, clients, List.filter_map]
  congr 1
  refine List.filter_congr fun entry _ => ?_
  simp [bne, beq_eq_decide]

/-- What is left alone of the subscriptions of a client includes whether it is tracked. -/
theorem mem_clients_congr {first second : Registry} {client : Nat}
    (same : second.subscriptions? client = first.subscriptions? client) :
    client ∈ second.clients ↔ client ∈ first.clients := by
  rw [← not_iff_not, ← subscriptions?_eq_none_iff, ← subscriptions?_eq_none_iff, same]

end Registry

section Answer

variable (hub : Hub) (client : Nat)

theorem clients_subscribe (subscription : Subscription) :
    (hub.subscribe client subscription).1.registry.clients = hub.registry.clients := by
  unfold subscribe
  split
  · exact Registry.clients_update _ _ _
  · rfl

theorem clients_unsubscribe (query : Subscription) :
    (hub.unsubscribe client query).1.registry.clients = hub.registry.clients := by
  unfold unsubscribe
  split
  · rfl
  · exact Registry.clients_update _ _ _

theorem clients_execute (command : Command) :
    (hub.execute client command).1.registry.clients = hub.registry.clients := by
  cases action : command.operation.action with
  | subscribe =>
    unfold execute
    rw [action]
    exact clients_subscribe hub client command.subscription
  | unsubscribe =>
    rw [execute_of_unsubscribe hub client action]
    exact clients_unsubscribe hub client command.subscription

theorem clients_answer (text : String) :
    (hub.answer client text).1.registry.clients = hub.registry.clients := by
  unfold answer
  split
  · rfl
  · exact clients_execute _ client _

end Answer

/-- A client that is tracked is removed once, and counted off. -/
theorem removeClient_of_tracked {hub : Hub} {client : Nat} (distinct : hub.registry.clients.Nodup)
    (known : client ∈ hub.registry.clients) :
    (hub.removeClient client).2 = true ∧
      (hub.removeClient client).1.registry.clients = hub.registry.clients.erase client := by
  obtain ⟨held, tracked⟩ : ∃ held, hub.registry.subscriptions? client = some held :=
    Option.ne_none_iff_exists'.mp (mt Registry.subscriptions?_eq_none_iff.mp (not_not_intro known))
  unfold removeClient
  rw [tracked]
  refine ⟨rfl, ?_⟩
  rw [(kept_foldl_count held _).2, ← Registry.clients_untrack distinct]
  rfl

theorem run_handler_closed_of_removed {hub : Hub} {client : Nat}
    (removed : (hub.removeClient client).2 = true) (connection : Session.Connection) :
    (Hub.handler hub client .closed).run connection =
      (connection, (hub.removeClient client).1.count .connections (-1)) := by
  unfold Hub.handler
  rcases left : hub.removeClient client with ⟨later, _ | _⟩
  · simp [left] at removed
  · rfl

/-- Every client is tracked once, and the gauge of connections counts those that are. -/
structure Accurate (hub : Hub) : Prop where
  distinct : hub.registry.clients.Nodup
  gauge : hub.tally.get .connections = hub.registry.clients.length

namespace Accurate

variable {hub later : Hub} {client : Nat}

theorem congr (accurate : hub.Accurate) (clients : later.registry.clients = hub.registry.clients)
    (gauge : later.tally.get .connections = hub.tally.get .connections) : later.Accurate :=
  ⟨clients ▸ accurate.distinct, by rw [gauge, clients, accurate.gauge]⟩

/-- A client that opens comes in. -/
theorem opened (accurate : hub.Accurate) (new : client ∉ hub.registry.clients) :
    ((hub.addClient client).count .connections 1).Accurate ∧
      client ∈ ((hub.addClient client).count .connections 1).registry.clients := by
  have clients : ((hub.addClient client).count .connections 1).registry.clients =
      hub.registry.clients ++ [client] := Registry.clients_track new
  refine ⟨⟨?_, ?_⟩, by simp [clients]⟩
  · rw [clients, List.nodup_append]
    refine ⟨accurate.distinct, List.nodup_singleton client, ?_⟩
    rintro found mem other last rfl
    exact new (List.mem_singleton.mp last ▸ mem)
  · rw [clients, List.length_append]
    have gauge := accurate.gauge
    simp [addClient, withRegistry, count, Tally.get_add, gauge]

/-- A client that closes goes. -/
theorem closed (accurate : hub.Accurate) (known : client ∈ hub.registry.clients)
    (connection : Session.Connection) :
    ((Hub.handler hub client .closed).run connection).2.Accurate ∧
      client ∉ ((Hub.handler hub client .closed).run connection).2.registry.clients := by
  obtain ⟨removed, clients⟩ := removeClient_of_tracked accurate.distinct known
  rw [run_handler_closed_of_removed removed]
  change Accurate _ ∧ client ∉ (hub.removeClient client).1.registry.clients
  have fewer : ((hub.removeClient client).1.count .connections (-1)).registry.clients =
      hub.registry.clients.erase client := clients
  refine ⟨⟨fewer ▸ accurate.distinct.erase client, ?_⟩, ?_⟩
  · have positive := List.length_pos_of_mem known
    have gauge := TrafficOnly.removeClient hub client .connections rfl
    rw [fewer, List.length_erase_of_mem known]
    simp only [count, Tally.get_add, gauge, accurate.gauge, if_true]
    omega
  · rw [clients]
    exact accurate.distinct.not_mem_erase

/-- What the relay is told of a client keeps the count, and the client is in as long as it is
present. -/
theorem handler {stage next : Session.Stage} {event : Session.Event} (accurate : hub.Accurate)
    (tracked : client ∈ hub.registry.clients ↔ stage.Present)
    (hears : stage.hear? event = some next) (connection : Session.Connection) :
    ((Hub.handler hub client event).run connection).2.Accurate ∧
      (client ∈ ((Hub.handler hub client event).run connection).2.registry.clients ↔
        next.Present) := by
  have stays {later : Hub} (clients : later.registry.clients = hub.registry.clients)
      (traffic : TrafficOnly hub later) (same : next.Present ↔ stage.Present) :
      later.Accurate ∧ (client ∈ later.registry.clients ↔ next.Present) :=
    ⟨accurate.congr clients (traffic _ rfl), by rw [clients, tracked, same]⟩
  cases event with
  | opened =>
    cases stage with
    | unheard =>
      obtain rfl : next = .opened := (Option.some.inj hears).symm
      obtain ⟨kept, came⟩ := accurate.opened (mt tracked.mp (by simp [Session.Stage.Present]))
      exact ⟨kept, iff_of_true came (.inl rfl)⟩
    | _ => cases hears
  | closed =>
    obtain ⟨present, rfl⟩ : stage.Present ∧ next = .ended := by
      cases stage with
      | opened => exact ⟨.inl rfl, (Option.some.inj hears).symm⟩
      | failed => exact ⟨.inr rfl, (Option.some.inj hears).symm⟩
      | _ => cases hears
    obtain ⟨kept, gone⟩ := accurate.closed (tracked.mpr present) connection
    exact ⟨kept, iff_of_false gone (by simp [Session.Stage.Present])⟩
  | failed fault =>
    obtain ⟨rfl, rfl⟩ : stage = .opened ∧ next = .failed := by
      cases stage with
      | opened => exact ⟨rfl, (Option.some.inj hears).symm⟩
      | _ => cases hears
    exact stays rfl (.refl hub) (by simp [Session.Stage.Present])
  | text content =>
    obtain ⟨rfl, rfl⟩ := Session.Stage.eq_opened_of_message rfl hears
    exact stays (clients_answer hub client content) (.answer hub client content) .rfl
  | _ =>
    obtain ⟨rfl, rfl⟩ := Session.Stage.eq_opened_of_message rfl hears
    exact stays rfl (.refl hub) .rfl

end Accurate

/-- What a worker may change: counts of other things than connections, and the connections of the
clients in the registry, which it may only begin to close. -/
structure Calm (before after : Relay.Floor) : Prop where
  registry : after.1.registry = before.1.registry
  gauge : after.1.tally.get .connections = before.1.tally.get .connections
  length : after.2.length = before.2.length
  persists : ∀ {client : Nat} {connection : Session.Connection},
    before.2[client]? = some connection → ∃ later, after.2[client]? = some later ∧
      connection.Persists later ∧ (client ∉ before.1.registry.clients → later = connection)

namespace Calm

variable {first second third : Relay.Floor}

theorem refl (floor : Relay.Floor) : Calm floor floor :=
  ⟨rfl, rfl, rfl, fun known => ⟨_, known, .refl _, fun _ => rfl⟩⟩

theorem trans (front : Calm first second) (back : Calm second third) : Calm first third := by
  refine ⟨back.registry.trans front.registry, back.gauge.trans front.gauge,
    back.length.trans front.length, fun known => ?_⟩
  obtain ⟨middle, found, early, same⟩ := front.persists known
  obtain ⟨last, still, late, alike⟩ := back.persists found
  refine ⟨last, still, early.trans late, fun absent => ?_⟩
  rw [alike (front.registry ▸ absent), same absent]

theorem count (floor : Relay.Floor) {sample : Sample} (other : sample ≠ .connections)
    (amount : Int) : Calm floor (Relay.countOn floor sample amount) :=
  ⟨rfl, get_count_other floor.1 other.symm amount, rfl,
    fun known => ⟨_, known, .refl _, fun _ => rfl⟩⟩

/-- A broadcast to clients in the registry touches nobody else. -/
theorem broadcast (event : FeedEvent) (text : String) (floor : Relay.Floor) {targets : List Nat}
    (within : ∀ target ∈ targets, target ∈ floor.1.registry.clients) :
    Calm floor (floor.1.broadcast event text floor.2 targets) := by
  refine ⟨(kept_broadcast event text floor.1 floor.2 targets).2,
    TrafficOnly.broadcast event text floor.1 floor.2 targets .connections rfl,
    length_broadcast floor.1 floor.2 targets, fun {client connection} known => ?_⟩
  refine ⟨_, by rw [broadcast_getElem?, known, Option.map_some], .iterate_hear _ _ _,
    fun absent => ?_⟩
  rw [List.count_eq_zero_of_not_mem (mt (within client) absent)]
  rfl

end Calm

/-- A job of a worker keeps every relation to what was before that its counts of payloads and its
announcements keep. -/
theorem Worker.related_of_work? {Value State : Type} (worker : Worker Value State)
    {Related : State → State → Prop} (refl : ∀ state, Related state state)
    (trans : ∀ {first second third}, Related first second → Related second third →
      Related first third)
    (counted : ∀ state sample amount, sample.isFeed = true →
      Related state (worker.count state sample amount))
    (handled : ∀ state value, Related state (worker.handle state value))
    {pipeline later : Pipeline} {state changed : State}
    (worked : worker.work? pipeline state = some (later, changed)) : Related state changed := by
  unfold work? at worked
  rcases found : pipeline.take? with _ | ⟨raw | _, rest⟩ <;> rw [found] at worked <;> cases worked
  · unfold process
    have taken := counted state (.queueDepth pipeline.event) (-1) rfl
    split
    · exact trans taken (counted _ _ 1 rfl)
    · exact trans taken (trans (counted _ _ 1 rfl) (handled _ _))
  · exact refl state

/-- A worker leaves everybody alone who is not in the registry, and nobody comes or goes. -/
theorem calm_of_work? {relay later : Relay} {connections changed : List Session.Connection}
    {event : FeedEvent} (worked : relay.work? connections event = some (later, changed)) :
    Calm (relay.hub, connections) (later.hub, changed) := by
  have counted (floor : Relay.Floor) (sample : Sample) (amount : Int)
      (fed : sample.isFeed = true) : Calm floor (Relay.countOn floor sample amount) := by
    refine .count floor ?_ amount
    rintro rfl
    cases fed
  cases event with
  | block =>
    obtain ⟨result, done, same⟩ := Option.map_eq_some_iff.mp worked
    cases same
    exact Relay.blockWorker.related_of_work? Calm.refl Calm.trans counted
      (fun floor block => .broadcast _ _ floor fun target => Registry.mem_clients_of_matching) done
  | transaction =>
    obtain ⟨result, done, same⟩ := Option.map_eq_some_iff.mp worked
    cases same
    exact Relay.transactionWorker.related_of_work? Calm.refl Calm.trans counted
      (fun floor transaction => .broadcast _ _ floor fun target =>
        mem_clients_of_transactionTargets) done

end Hub

end CashHerald
