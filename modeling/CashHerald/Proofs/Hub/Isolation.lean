import CashHerald.Proofs.Hub.Synchrony

/-!
Runs of a started relay with clients that come and go, each step completed before the next. Main
statement: what a client is sent depends on the feed, on the shutdown and on what the client itself
does, and not on the other clients.
-/

namespace CashHerald.Hub

/-- What a client does, or what happens to its connection. -/
inductive Deed where
  | opens (dialect : Wire.Dialect)
  | tells (event : Session.Event)
  | closes (code : UInt16)
  | losesReceiver

/-- What happens in a run: a payload is fed in, the relay is shut down, or a client does
something. -/
inductive Step (Name : Type) where
  | feed (event : FeedEvent) (raw : Octets)
  | shutdown
  | client (name : Name) (deed : Deed)

/-- A relay with the connections of its clients. The relay numbers its clients in the order in which
they open; their names are the same in every run. -/
structure World (Name : Type) where
  relay : Relay
  names : List Name
  connections : List Session.Connection

variable {Name : Type}

/-- A step that is no other client's. -/
def Step.concerns [DecidableEq Name] (name : Name) : Step Name → Bool
  | .feed _ _ => true
  | .shutdown => true
  | .client other _ => other = name

namespace World

/-- A started relay without clients. -/
def start (network : String) : World Name :=
  ⟨.start network, [], []⟩

/-- The number of a client. Whoever has not opened yet gets the next one or a later one. -/
def number [DecidableEq Name] (world : World Name) (name : Name) : Nat :=
  world.names.idxOf name

/-- The relay is told of an event on a connection. -/
def tell (world : World Name) (client : Nat) (event : Session.Event) : World Name :=
  match world.connections[client]? with
  | none => world
  | some connection =>
    let (later, relay) := (Relay.handler world.relay client event).run connection
    ⟨relay, world.names, world.connections.set client later⟩

/-- The world with another connection of a client, who is new to the relay. -/
def welcome (world : World Name) (name : Name) (dialect : Wire.Dialect) : World Name :=
  ⟨world.relay, world.names ++ [name], world.connections ++ [.opened dialect]⟩

/-- Something is done to the connection of a client. -/
def change (world : World Name) (client : Nat)
    (done : Session.Connection → Session.Connection) : World Name :=
  ⟨world.relay, world.names, world.connections.modify client done⟩

/-- The world with the relay and the connections after some work. -/
def after (world : World Name) (result : Relay × List Session.Connection) : World Name :=
  ⟨result.1, world.names, result.2⟩

/-- The world after a step. A payload is submitted, and the worker of its event takes all that is
queued; a client opens once. -/
def step [DecidableEq Name] (world : World Name) : Step Name → World Name
  | .feed event raw =>
    world.after ((world.relay.submit event raw).1.workAll world.connections event)
  | .shutdown => world.after (world.relay.shutdown world.connections)
  | .client name (.opens dialect) =>
    if name ∈ world.names then world
    else (world.welcome name dialect).tell world.names.length .opened
  | .client name (.tells event) => world.tell (world.number name) event
  | .client name (.closes code) => world.change (world.number name) (·.close code)
  | .client name .losesReceiver => world.change (world.number name) (·.detach)

/-- What is queued for a client. -/
def queued [DecidableEq Name] (world : World Name) (name : Name) : List Session.Outbound :=
  ((world.connections[world.number name]?).map Session.Connection.queue).getD []

/-- The world when the receivers have taken what was queued for them. -/
def delivered (world : World Name) : World Name :=
  ⟨world.relay, world.names, world.connections.map (·.take.2)⟩

/-- The items that are queued for a client in the course of some steps, each of which is completed,
and its items taken, before the next. -/
def received [DecidableEq Name] (name : Name) :
    World Name → List (Step Name) → List Session.Outbound
  | _, [] => []
  | world, step :: rest =>
    (world.step step).queued name ++ received name (world.step step).delivered rest

/-- The relay of a world with the connections of its clients. -/
def parts (world : World Name) : Relay × List Session.Connection :=
  (world.relay, world.connections)

section Tell

variable {world : World Name} {client : Nat}

theorem tell_of_unknown (unknown : world.connections[client]? = none) (event : Session.Event) :
    world.tell client event = world := by
  simp only [tell, unknown]

theorem tell_of_known {connection : Session.Connection}
    (known : world.connections[client]? = some connection) (event : Session.Event) :
    world.tell client event =
      ⟨world.relay.withHub ((Hub.handler world.relay.hub client event).run connection).2,
        world.names, world.connections.set client
          ((Hub.handler world.relay.hub client event).run connection).1⟩ := by
  simp only [tell, known, Relay.handler, Session.Reaction.run_map]

theorem names_tell (world : World Name) (client : Nat) (event : Session.Event) :
    (world.tell client event).names = world.names ∧
      (world.tell client event).connections.length = world.connections.length := by
  rcases known : world.connections[client]? with _ | connection
  · rw [tell_of_unknown known]
    exact ⟨rfl, rfl⟩
  · rw [tell_of_known known]
    exact ⟨rfl, List.length_set⟩

end Tell

variable {first second : World Name} {client other : Nat}

/-- What another client says makes no difference. -/
theorem synchronous_tell_other (synchronous : Synchronous client other first.parts second.parts)
    {speaker : Nat} (differs : speaker ≠ client) (event : Session.Event) :
    Synchronous client other (first.tell speaker event).parts second.parts := by
  rcases known : first.connections[speaker]? with _ | connection
  · rwa [tell_of_unknown known]
  · have within := (List.getElem?_eq_some_iff.mp known).1
    have confined := first.relay.hub.confined_handler speaker event connection
    rw [tell_of_known known]
    refine ⟨synchronous.blocks, synchronous.transactions, ⟨?_, ?_⟩, ?_,
      synchronous.floor.housed.heed within confined _, synchronous.floor.otherHoused⟩
    · exact confined.network.trans synchronous.floor.hub.network
    · exact (confined.registry.others differs.symm).trans synchronous.floor.hub.subscriptions
    · exact (List.getElem?_set_ne differs).trans synchronous.floor.connection

/-- What the client says has the same effect on both sides. -/
theorem synchronous_tell (synchronous : Synchronous client other first.parts second.parts)
    (event : Session.Event) :
    Synchronous client other (first.tell client event).parts (second.tell other event).parts := by
  have same : first.connections[client]? = second.connections[other]? :=
    synchronous.floor.connection
  rcases known : first.connections[client]? with _ | connection
  · rw [tell_of_unknown known, tell_of_unknown (same.symm.trans known)]
    exact synchronous
  · have otherKnown := same.symm.trans known
    have within := (List.getElem?_eq_some_iff.mp known).1
    have otherWithin := (List.getElem?_eq_some_iff.mp otherKnown).1
    obtain ⟨changed, alike⟩ := synchronous.floor.hub.handler event connection
    rw [tell_of_known known, tell_of_known otherKnown]
    refine ⟨synchronous.blocks, synchronous.transactions, alike, ?_, ?_, ?_⟩
    · refine (List.getElem?_set_self within).trans ((congrArg some changed).trans ?_)
      exact (List.getElem?_set_self otherWithin).symm
    · exact synchronous.floor.housed.heed within (Hub.confined_handler _ client event connection) _
    · exact synchronous.floor.otherHoused.heed otherWithin
        (Hub.confined_handler _ other event connection) _

/-- Something is done to the connection of another client. -/
theorem synchronous_change_other (synchronous : Synchronous client other first.parts second.parts)
    {owner : Nat} (differs : owner ≠ client) (done : Session.Connection → Session.Connection) :
    Synchronous client other (first.change owner done).parts second.parts := by
  refine ⟨synchronous.blocks, synchronous.transactions, synchronous.floor.hub, ?_,
    ⟨synchronous.floor.housed.distinct, fun {tracked} mem => ?_⟩, synchronous.floor.otherHoused⟩
  · exact (List.getElem?_modify_ne done _ differs).trans synchronous.floor.connection
  · exact (synchronous.floor.housed.bounded mem).trans_eq (List.length_modify ..).symm

theorem synchronous_change (synchronous : Synchronous client other first.parts second.parts)
    (done : Session.Connection → Session.Connection) :
    Synchronous client other (first.change client done).parts (second.change other done).parts := by
  refine ⟨synchronous.blocks, synchronous.transactions, synchronous.floor.hub, ?_,
    ⟨synchronous.floor.housed.distinct, fun {tracked} mem => ?_⟩,
    ⟨synchronous.floor.otherHoused.distinct, fun {tracked} mem => ?_⟩⟩
  · refine (List.getElem?_modify_eq ..).trans ?_
    exact (congrArg _ synchronous.floor.connection).trans (List.getElem?_modify_eq ..).symm
  · exact (synchronous.floor.housed.bounded mem).trans_eq (List.length_modify ..).symm
  · exact (synchronous.floor.otherHoused.bounded mem).trans_eq (List.length_modify ..).symm

section Names

variable [DecidableEq Name] {world : World Name} {name other : Name}

/-- Two clients of whom one has opened have different numbers. -/
theorem number_ne (opened : other ∈ world.names) (differs : other ≠ name) :
    world.number other ≠ world.number name :=
  fun same => differs ((List.idxOf_inj opened).mp same)

theorem number_of_new (new : name ∉ world.names) : world.number name = world.names.length :=
  List.idxOf_eq_length new

theorem number_welcome (new : name ∉ world.names) (dialect : Wire.Dialect) :
    (world.welcome name dialect).number name = world.names.length := by
  rw [number, welcome, List.idxOf_append_of_notMem new]
  simp

/-- Every client has a connection from when it has opened. -/
theorem mem_names_iff (seats : world.connections.length = world.names.length) :
    name ∈ world.names ↔ (world.connections[world.number name]?).isSome = true := by
  simp [number, seats, List.idxOf_lt_length_iff]

end Names

/-- Two worlds that look the same to a client. -/
structure Matches [DecidableEq Name] (name : Name) (first second : World Name) : Prop where
  seats : first.connections.length = first.names.length
  otherSeats : second.connections.length = second.names.length
  parts : Synchronous (first.number name) (second.number name) first.parts second.parts

section Matching

variable [DecidableEq Name] {first second : World Name} {name other : Name}

theorem Matches.mem_names_iff (same : Matches name first second) :
    name ∈ first.names ↔ name ∈ second.names := by
  rw [World.mem_names_iff same.seats, World.mem_names_iff same.otherSeats]
  exact iff_of_eq (congrArg (·.isSome = true) same.parts.floor.connection)

omit [DecidableEq Name] in
/-- A client who is new to the relay is not tracked. -/
theorem subscriptions?_of_new {world : World Name}
    (seats : world.connections.length = world.names.length)
    (housed : Housed (world.relay.hub, world.connections)) {client : Nat}
    (beyond : world.names.length ≤ client) :
    world.relay.hub.registry.subscriptions? client = none := by
  rw [Registry.subscriptions?_eq_none_iff]
  intro mem
  exact absurd (housed.bounded mem) (Nat.not_lt.mpr (seats ▸ beyond))

omit [DecidableEq Name] in
theorem housed_welcome {world : World Name}
    (housed : Housed (world.relay.hub, world.connections)) (name : Name)
    (dialect : Wire.Dialect) :
    Housed ((world.welcome name dialect).relay.hub, (world.welcome name dialect).connections) := by
  refine ⟨housed.distinct, fun {client} mem => ?_⟩
  exact (housed.bounded mem).trans (List.length_append ▸ Nat.lt_succ_self _)

/-- Another client opens. Whoever has opened keeps its number, and whoever has not still has no
connection and no subscriptions. -/
theorem Matches.welcome_other (same : Matches name first second) (differs : other ≠ name)
    (dialect : Wire.Dialect) : Matches name (first.welcome other dialect) second := by
  have housed := same.parts.floor.housed
  have kept :
      (first.welcome other dialect).connections[(first.welcome other dialect).number name]? =
        first.connections[first.number name]? ∧
      first.relay.hub.registry.subscriptions? ((first.welcome other dialect).number name) =
        first.relay.hub.registry.subscriptions? (first.number name) := by
    by_cases opened : name ∈ first.names
    · have number : (first.welcome other dialect).number name = first.number name :=
        List.idxOf_append_of_mem opened
      have within : first.number name < first.connections.length := by
        rw [same.seats]
        exact List.idxOf_lt_length_iff.mpr opened
      rw [number]
      exact ⟨List.getElem?_append_left within, rfl⟩
    · -- Whoever has not opened is numbered behind all others, one place further than before.
      have number : (first.welcome other dialect).number name = first.names.length + 1 := by
        rw [World.number, welcome, List.idxOf_append_of_notMem opened]
        simp [differs]
      rw [number, number_of_new opened, subscriptions?_of_new same.seats housed (Nat.le_succ _),
        subscriptions?_of_new same.seats housed (Nat.le_refl _)]
      refine ⟨?_, rfl⟩
      rw [List.getElem?_eq_none (by simp [welcome, same.seats]),
        List.getElem?_eq_none (by rw [same.seats])]
  refine ⟨by simp [welcome, same.seats], same.otherSeats, same.parts.blocks,
    same.parts.transactions, ⟨same.parts.floor.hub.network, ?_⟩, ?_,
    housed_welcome housed other dialect, same.parts.floor.otherHoused⟩
  · exact kept.2.trans same.parts.floor.hub.subscriptions
  · exact kept.1.trans same.parts.floor.connection

/-- The client opens on both sides. -/
theorem Matches.welcome (same : Matches name first second) (new : name ∉ first.names)
    (dialect : Wire.Dialect) :
    Matches name (first.welcome name dialect) (second.welcome name dialect) := by
  have otherNew := mt same.mem_names_iff.mpr new
  have seated {world : World Name} (seats : world.connections.length = world.names.length) :
      (world.welcome name dialect).connections[world.names.length]? = some (.opened dialect) := by
    rw [← seats]
    exact List.getElem?_concat_length ..
  have housed := same.parts.floor.housed
  have otherHoused := same.parts.floor.otherHoused
  refine ⟨by simp [World.welcome, same.seats], by simp [World.welcome, same.otherSeats], ?_⟩
  rw [number_welcome new, number_welcome otherNew]
  refine ⟨same.parts.blocks, same.parts.transactions, ⟨same.parts.floor.hub.network, ?_⟩, ?_,
    housed_welcome housed name dialect, housed_welcome otherHoused name dialect⟩
  · exact (subscriptions?_of_new same.seats housed (Nat.le_refl _)).trans
      (subscriptions?_of_new same.otherSeats otherHoused (Nat.le_refl _)).symm
  · exact (seated same.seats).trans (seated same.otherSeats).symm

theorem Matches.tell_other (same : Matches name first second) {speaker : Nat}
    (differs : speaker ≠ first.number name) (event : Session.Event) :
    Matches name (first.tell speaker event) second := by
  obtain ⟨names, length⟩ := names_tell first speaker event
  have number : (first.tell speaker event).number name = first.number name :=
    congrArg (List.idxOf name) names
  refine ⟨by rw [length, names, same.seats], same.otherSeats, ?_⟩
  rw [number]
  exact synchronous_tell_other same.parts differs event

theorem Matches.tell (same : Matches name first second) (event : Session.Event) :
    Matches name (first.tell (first.number name) event)
      (second.tell (second.number name) event) := by
  obtain ⟨names, length⟩ := names_tell first (first.number name) event
  obtain ⟨otherNames, otherLength⟩ := names_tell second (second.number name) event
  have number : (first.tell (first.number name) event).number name = first.number name :=
    congrArg (List.idxOf name) names
  have otherNumber : (second.tell (second.number name) event).number name = second.number name :=
    congrArg (List.idxOf name) otherNames
  refine ⟨by rw [length, names, same.seats], by rw [otherLength, otherNames, same.otherSeats], ?_⟩
  rw [number, otherNumber]
  exact synchronous_tell same.parts event

theorem Matches.change_other (same : Matches name first second) {owner : Nat}
    (differs : owner ≠ first.number name) (done : Session.Connection → Session.Connection) :
    Matches name (first.change owner done) second :=
  ⟨(List.length_modify ..).trans same.seats, same.otherSeats,
    synchronous_change_other same.parts differs done⟩

theorem Matches.change (same : Matches name first second)
    (done : Session.Connection → Session.Connection) :
    Matches name (first.change (first.number name) done)
      (second.change (second.number name) done) :=
  ⟨(List.length_modify ..).trans same.seats, (List.length_modify ..).trans same.otherSeats,
    synchronous_change same.parts done⟩

/-- Nothing comes of what is said or done for a client who has not opened. -/
theorem step_of_new (seats : first.connections.length = first.names.length)
    (new : other ∉ first.names) (event : Session.Event)
    (done : Session.Connection → Session.Connection) :
    first.tell (first.number other) event = first ∧
      first.change (first.number other) done = first := by
  have beyond : first.connections.length ≤ first.number other := by
    rw [number_of_new new, seats]
  refine ⟨tell_of_unknown (List.getElem?_eq_none beyond) event, ?_⟩
  rw [World.change, List.modify_eq_self beyond]

/-- Somebody else's step makes no difference. -/
theorem Matches.step_other (same : Matches name first second) {step : Step Name}
    (others : step.concerns name = false) : Matches name (first.step step) second := by
  cases step with
  | feed event raw => cases others
  | shutdown => cases others
  | client other deed =>
    have differs : other ≠ name := of_decide_eq_false others
    by_cases opened : other ∈ first.names
    · have number := number_ne opened differs
      cases deed with
      | opens dialect => rwa [World.step, if_pos opened]
      | tells event => exact same.tell_other number event
      | closes code => exact same.change_other number _
      | losesReceiver => exact same.change_other number _
    · have nothing := step_of_new same.seats opened
      cases deed with
      | opens dialect =>
        have welcomed := same.welcome_other differs dialect
        have seat : other ∈ (first.welcome other dialect).names := by simp [World.welcome]
        have number := number_ne seat differs
        rw [number_welcome opened] at number
        rw [World.step, if_neg opened]
        exact welcomed.tell_other number .opened
      | tells event => rwa [World.step, (nothing event id).1]
      | closes code => rwa [World.step, (nothing .opened _).2]
      | losesReceiver => rwa [World.step, (nothing .opened _).2]

/-- A step that concerns the client has the same effect on both sides. -/
theorem Matches.step (same : Matches name first second) {step : Step Name}
    (concerned : step.concerns name = true) :
    Matches name (first.step step) (second.step step) := by
  cases step with
  | feed event raw =>
    refine ⟨(length_workAll ..).trans same.seats, (length_workAll ..).trans same.otherSeats, ?_⟩
    exact (same.parts.submit event raw).workAll event
  | shutdown =>
    exact ⟨(length_shutdown ..).trans same.seats, (length_shutdown ..).trans same.otherSeats,
      same.parts.shutdown⟩
  | client other deed =>
    obtain rfl : other = name := of_decide_eq_true concerned
    cases deed with
    | opens dialect =>
      by_cases opened : other ∈ first.names
      · rwa [World.step, World.step, if_pos opened, if_pos (same.mem_names_iff.mp opened)]
      · have otherNew := mt same.mem_names_iff.mpr opened
        have told := (same.welcome opened dialect).tell .opened
        rw [number_welcome opened, number_welcome otherNew] at told
        rwa [World.step, World.step, if_neg opened, if_neg otherNew]
    | tells event => exact same.tell event
    | closes code => exact same.change _
    | losesReceiver => exact same.change _

theorem Matches.queued (same : Matches name first second) :
    first.queued name = second.queued name :=
  congrArg (fun connection : Option Session.Connection =>
    (connection.map Session.Connection.queue).getD []) same.parts.floor.connection

omit [DecidableEq Name] in
theorem housed_delivered {world : World Name}
    (housed : Housed (world.relay.hub, world.connections)) :
    Housed (world.delivered.relay.hub, world.delivered.connections) := by
  refine ⟨housed.distinct, fun {client} mem => ?_⟩
  exact (housed.bounded mem).trans_eq (List.length_map _).symm

theorem Matches.delivered (same : Matches name first second) :
    Matches name first.delivered second.delivered := by
  refine ⟨(List.length_map _).trans same.seats, (List.length_map _).trans same.otherSeats,
    same.parts.blocks, same.parts.transactions, same.parts.floor.hub, ?_,
    housed_delivered same.parts.floor.housed, housed_delivered same.parts.floor.otherHoused⟩
  have taken := congrArg (Option.map fun connection : Session.Connection => connection.take.2)
    same.parts.floor.connection
  exact List.getElem?_map.trans (taken.trans List.getElem?_map.symm)

/-- A receiver that takes nothing makes no difference. -/
theorem Matches.delivered_idle (same : Matches name first second)
    (idle : first.queued name = []) : Matches name first.delivered second := by
  refine ⟨(List.length_map _).trans same.seats, same.otherSeats, same.parts.blocks,
    same.parts.transactions, same.parts.floor.hub, ?_, housed_delivered same.parts.floor.housed,
    same.parts.floor.otherHoused⟩
  have kept : (first.connections[first.number name]?).map
      (fun connection : Session.Connection => connection.take.2) =
        first.connections[first.number name]? := by
    rcases known : first.connections[first.number name]? with _ | ⟨state, details, attached, queue⟩
    · rfl
    · simp only [World.queued, known, Option.map_some, Option.getD_some] at idle
      subst idle
      rfl
  exact List.getElem?_map.trans (kept.trans same.parts.floor.connection)

theorem queued_delivered (world : World Name) (name : Name) : world.delivered.queued name = [] := by
  have taken : world.delivered.connections[world.delivered.number name]? =
      (world.connections[world.number name]?).map (·.take.2) := List.getElem?_map
  rw [World.queued, taken]
  rcases world.connections[world.number name]? with _ | connection <;> rfl

/-- A client is sent the same as if nobody else were there. -/
theorem received_eq_received_filter (same : Matches name first second)
    (idle : first.queued name = []) (steps : List (Step Name)) :
    received name first steps = received name second (steps.filter (Step.concerns name)) := by
  induction steps generalizing first second with
  | nil => rfl
  | cons step rest inductionHypothesis =>
    by_cases concerned : step.concerns name = true
    · have next := same.step concerned
      rw [List.filter_cons_of_pos concerned, received, received, next.queued,
        inductionHypothesis next.delivered (queued_delivered _ name)]
    · -- Somebody else's step is a step of the first run only.
      have next := same.step_other (Bool.not_eq_true _ ▸ concerned)
      have nothing : (first.step step).queued name = [] := by
        rw [next.queued, ← same.queued, idle]
      rw [List.filter_cons_of_neg concerned, received, nothing, List.nil_append,
        inductionHypothesis (next.delivered_idle nothing) (queued_delivered _ name)]

theorem matches_start (network : String) (name : Name) :
    Matches name (start network) (start network) := by
  have housed : Housed ((Hub.start network), []) := ⟨List.nodup_nil, fun mem => by cases mem⟩
  exact ⟨rfl, rfl, rfl, rfl, ⟨rfl, rfl⟩, rfl, housed, housed⟩

/-- Clients do not interfere: in two runs of a relay for the same network, with the same feed, the
same shutdown and the same deeds of a client in the same order, the same items are queued for it,
whoever else is there and whatever they do in between. -/
theorem received_of_same_deeds (network : String) (name : Name) {first second : List (Step Name)}
    (same : first.filter (Step.concerns name) = second.filter (Step.concerns name)) :
    received name (start network) first = received name (start network) second := by
  have begins := matches_start network name
  rw [received_eq_received_filter begins rfl first, same,
    ← received_eq_received_filter begins rfl second]

/-- A client asks for all transactions; a transaction is fed in; the client asks for something
unknown and goes away. -/
def alone : List (Step String) :=
  [.client "alice" (.opens .hybi13),
    .client "alice" (.tells (.text "\x7b\"op\":\"transaction\"\x7d")),
    .feed .transaction [1, 0, 0, 0, 0, 0, 0, 0, 0, 0], .client "alice" (.tells (.text "?")),
    .client "alice" (.tells .closed), .shutdown]

/-- The same in company: another client asks for the same, loses its receiver, and is closed. -/
def inCompany : List (Step String) :=
  [.client "bob" (.opens .draft76), .client "alice" (.opens .hybi13),
    .client "bob" (.tells (.text "\x7b\"op\":\"transaction\"\x7d")),
    .client "alice" (.tells (.text "\x7b\"op\":\"transaction\"\x7d")),
    .client "bob" .losesReceiver, .feed .transaction [1, 0, 0, 0, 0, 0, 0, 0, 0, 0],
    .client "bob" (.closes 1000), .client "alice" (.tells (.text "?")),
    .client "bob" (.tells .closed), .client "alice" (.tells .closed), .shutdown]

/-- The reply, the announcement and the refusal are received either way. -/
theorem received_alone_inCompany :
    alone.filter (Step.concerns "alice") = inCompany.filter (Step.concerns "alice") ∧
      (received "alice" (start "bitcoincash") alone).length = 3 ∧
      received "alice" (start "bitcoincash") alone =
        received "alice" (start "bitcoincash") inCompany := by
  have same : alone.filter (Step.concerns "alice") = inCompany.filter (Step.concerns "alice") := by
    simp [alone, inCompany, Step.concerns, List.filter_cons]
  exact ⟨same, by decide +kernel, received_of_same_deeds "bitcoincash" "alice" same⟩

end Matching

end World

end CashHerald.Hub
