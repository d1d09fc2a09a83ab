import CashHerald.Proofs.Hub.Attendance
import CashHerald.Proofs.Hub.Shifts
import CashHerald.Session.Server

/-!
A server with a relay, and all its clients, one step at a time and in any order: clients connect,
their sessions take up what arrives and work on their tasks, their writers write, payloads are
submitted, the workers of the relay take them, and the pipelines are closed. Main statement: at
every moment the clients in the registry are those whose handshake has completed and whose
connection has not been torn down, and the gauge of connections is their number.
-/

namespace CashHerald.Hub

open Session (Guest Doing Stage)

/-- A server with the relay that is its handler, and its clients in the order they connected. -/
structure House where
  settings : Session.Settings
  guests : List Guest
  relay : Relay
  listening : Bool

/-- What happens next: a client connects, the server stops listening, something is done for a
client, a payload is submitted, a worker takes a job, or a pipeline is closed. -/
inductive Incident where
  | connect
  | stop
  | attend (client : Nat) (doing : Doing)
  | submit (event : FeedEvent) (raw : Octets)
  | work (event : FeedEvent)
  | close (event : FeedEvent)

namespace House

/-- A server without clients whose relay has nothing to do. -/
def start (settings : Session.Settings) (network : String) : House :=
  ⟨settings, [], .start network, true⟩

/-- The clients in the registry. -/
def clients (house : House) : List Nat :=
  house.relay.hub.registry.clients

/-- The house with another relay. -/
def withRelay (house : House) (relay : Relay) : House :=
  ⟨house.settings, house.guests, relay, house.listening⟩

/-- The house after a worker has taken a job. -/
def after (house : House) (result : Relay × List Session.Connection) : House :=
  ⟨house.settings, List.zipWith Guest.withConnection house.guests result.2, result.1,
    house.listening⟩

/-- Something is done for a client. -/
def attend (house : House) (client : Nat) (doing : Doing) : House :=
  match house.guests[client]? with
  | none => house
  | some guest =>
    let (later, relay) := guest.act Relay.handler house.settings client house.relay doing
    ⟨house.settings, house.guests.set client later, relay, house.listening⟩

/-- The house after an incident. -/
def step (house : House) : Incident → House
  | .connect =>
    if house.listening then
      ⟨house.settings, house.guests ++ [.fresh], house.relay, true⟩
    else house
  | .stop => ⟨house.settings, house.guests, house.relay, false⟩
  | .attend client doing => house.attend client doing
  | .submit event raw => house.withRelay (house.relay.submit event raw).1
  | .work event =>
    match house.relay.work? (house.guests.map Guest.connection) event with
    | none => house
    | some result => house.after result
  | .close event => house.withRelay (house.relay.close event)

/-- The house after some incidents. -/
def run (house : House) (incidents : List Incident) : House :=
  incidents.foldl step house

/-- A client is in the registry while it is present, and the gauge counts those that are. -/
structure Attended (house : House) : Prop where
  accurate : house.relay.hub.Accurate
  within : ∀ {client}, client ∈ house.clients → client < house.guests.length
  seated : ∀ {client : Nat} {guest : Guest}, house.guests[client]? = some guest →
    ∃ stage, guest.Seated stage ∧ (client ∈ house.clients ↔ stage.Present)

theorem attended_start (settings : Session.Settings) (network : String) :
    (start settings network).Attended :=
  ⟨⟨List.nodup_nil, rfl⟩, nofun, nofun⟩

section Steps

variable {house : House}

/-- A relay with the same clients and the same gauge does as well. -/
theorem Attended.withRelay (attended : house.Attended) {relay : Relay}
    (registry : relay.hub.registry = house.relay.hub.registry)
    (gauge : relay.hub.tally.get .connections = house.relay.hub.tally.get .connections) :
    (house.withRelay relay).Attended := by
  have clients : (house.withRelay relay).clients = house.clients :=
    congrArg Registry.clients registry
  refine ⟨attended.accurate.congr (congrArg Registry.clients registry) gauge, ?_, ?_⟩
  · rw [clients]
    exact attended.within
  · rw [clients]
    exact attended.seated

theorem Attended.connect (attended : house.Attended) : (house.step .connect).Attended := by
  simp only [step]
  split_ifs
  · refine ⟨attended.accurate, fun {client} mem => ?_, fun {client guest} known => ?_⟩
    · have before := attended.within mem
      rw [List.length_append]
      omega
    · by_cases old : client < house.guests.length
      · rw [List.getElem?_append_left old] at known
        exact attended.seated known
      · -- Nobody is in the registry before having connected.
        rw [List.getElem?_append_right (Nat.le_of_not_lt old)] at known
        obtain rfl : guest = .fresh :=
          List.mem_singleton.mp (List.mem_of_getElem? known)
        refine ⟨.unheard, Session.Guest.seated_fresh, iff_of_false (mt attended.within old) ?_⟩
        simp [Stage.Present]
  · exact attended

theorem attend_of_known {client : Nat} {guest : Guest}
    (known : house.guests[client]? = some guest) (doing : Doing) :
    house.attend client doing =
      ⟨house.settings,
        house.guests.set client
          (guest.act Relay.handler house.settings client house.relay doing).1,
        (guest.act Relay.handler house.settings client house.relay doing).2, house.listening⟩ := by
  simp only [attend, known]

/-- What the relay has heard of a client keeps the registry in line with it. -/
theorem accurate_of_heard {relay later : Relay} {client : Nat} {stage next : Stage}
    (accurate : relay.hub.Accurate) (tracked : client ∈ relay.hub.registry.clients ↔ stage.Present)
    (heard : Guest.Heard Relay.handler client relay stage next later) :
    later.hub.Accurate ∧ (client ∈ later.hub.registry.clients ↔ next.Present) ∧
      Confined client relay.hub later.hub := by
  cases heard with
  | nothing => exact ⟨accurate, tracked, rfl, .refl _ _⟩
  | event hears connection =>
    simp only [Relay.handler, Session.Reaction.run_map, Relay.withHub]
    obtain ⟨kept, present⟩ := accurate.handler tracked hears connection
    exact ⟨kept, present, confined_handler _ _ _ _⟩

/-- What is done for one client concerns no other client. -/
theorem Attended.attend (attended : house.Attended) (client : Nat) (doing : Doing) :
    (house.attend client doing).Attended := by
  cases known : house.guests[client]? with
  | none =>
    have nobody : house.attend client doing = house := by
      simp only [House.attend, known]
    rw [nobody]
    exact attended
  | some guest =>
    obtain ⟨stage, seated, tracked⟩ := attended.seated known
    obtain ⟨next, kept, heard⟩ :=
      seated.act Relay.handler house.settings client house.relay doing
    obtain ⟨accurate, present, confined⟩ := accurate_of_heard attended.accurate tracked heard
    have inside := (List.getElem?_eq_some_iff.mp known).1
    rw [attend_of_known known]
    refine ⟨accurate, fun {other} mem => ?_, fun {other guest} found => ?_⟩
    · rw [List.length_set]
      rcases confined.registry.clients mem with before | rfl
      · exact attended.within before
      · exact inside
    · by_cases same : client = other
      · subst same
        rw [List.getElem?_set_self inside] at found
        obtain rfl := Option.some.inj found
        exact ⟨next, kept, present⟩
      · rw [List.getElem?_set_ne same] at found
        obtain ⟨stage, seated, tracked⟩ := attended.seated found
        refine ⟨stage, seated, (Registry.mem_clients_congr ?_).trans tracked⟩
        exact confined.registry.others (Ne.symm same)

/-- What a worker leaves of a client. -/
theorem exists_of_after {result : Relay × List Session.Connection} {client : Nat} {later : Guest}
    (calm : Calm (house.relay.hub, house.guests.map Guest.connection) (result.1.hub, result.2))
    (known : (house.after result).guests[client]? = some later) :
    ∃ guest, house.guests[client]? = some guest ∧
      later = guest.withConnection later.connection ∧
      guest.connection.Persists later.connection ∧
      (client ∉ house.clients → later = guest) := by
  simp only [after, List.getElem?_zipWith] at known
  cases found : house.guests[client]? with
  | none => simp [found] at known
  | some guest =>
    have seen : (house.guests.map Guest.connection)[client]? = some guest.connection := by
      simp [found]
    obtain ⟨connection, still, persists, same⟩ := calm.persists seen
    simp only [found, still, Option.some_inj] at known
    subst known
    exact ⟨guest, rfl, rfl, persists, fun absent => congrArg guest.withConnection (same absent)⟩

/-- A worker touches no one who is not in the registry. -/
theorem Attended.work (attended : house.Attended) (event : FeedEvent) :
    (house.step (.work event)).Attended := by
  simp only [step]
  cases worked : house.relay.work? (house.guests.map Guest.connection) event with
  | none => exact attended
  | some result =>
    have calm := calm_of_work? worked
    have clients : (house.after result).clients = house.clients :=
      congrArg Registry.clients calm.registry
    refine ⟨attended.accurate.congr (congrArg Registry.clients calm.registry) calm.gauge,
      fun {client} mem => ?_, fun {client later} known => ?_⟩
    · rw [clients] at mem
      have before := attended.within mem
      have length := calm.length
      simp only [List.length_map] at length
      simpa [after, length] using before
    · rw [clients]
      obtain ⟨guest, found, changed, persists, same⟩ := exists_of_after calm known
      obtain ⟨stage, seated, tracked⟩ := attended.seated found
      refine ⟨stage, ?_, tracked⟩
      by_cases present : client ∈ house.clients
      · have known : stage ≠ .unheard := by
          rintro rfl
          simp [Stage.Present, present] at tracked
        rw [changed]
        exact seated.persist persists (seated.standing.ne_fresh known)
      · rw [same present]
        exact seated

theorem Attended.step (attended : house.Attended) (incident : Incident) :
    (house.step incident).Attended := by
  cases incident with
  | connect => exact attended.connect
  | stop => exact ⟨attended.accurate, attended.within, attended.seated⟩
  | attend client doing => exact attended.attend client doing
  | submit event raw =>
    have submitted : (house.relay.submit event raw).1.hub.registry = house.relay.hub.registry ∧
        (house.relay.submit event raw).1.hub.tally.get .connections =
          house.relay.hub.tally.get .connections := by
      have other : Sample.connections ≠ .queueDepth event := by simp
      unfold Relay.submit
      split
      · exact ⟨rfl, rfl⟩
      · exact ⟨rfl, get_count_other house.relay.hub other 1⟩
    exact attended.withRelay submitted.1 submitted.2
  | work event => exact attended.work event
  | close event =>
    have closed : (house.relay.close event).hub = house.relay.hub := by
      cases event <;> rfl
    exact attended.withRelay (by rw [closed]) (by rw [closed])

theorem Attended.run (attended : house.Attended) (incidents : List Incident) :
    (house.run incidents).Attended := by
  induction incidents generalizing house with
  | nil => exact attended
  | cons incident rest inductionHypothesis => exact inductionHypothesis (attended.step incident)

end Steps

section Ended

variable {house : House} {client : Nat} {guest : Guest}

/-- A client whose connection has been torn down is not in the registry. -/
theorem Attended.notMem_of_ended (attended : house.Attended)
    (known : house.guests[client]? = some guest) (ended : guest.Ended) : client ∉ house.clients := by
  obtain ⟨stage, seated, tracked⟩ := attended.seated known
  rw [tracked, seated.present_iff]
  exact fun present => present.2 ended

/-- A connection that has been torn down stays so, and nothing is queued on it any more. -/
theorem Attended.exists_ended_step (attended : house.Attended)
    (known : house.guests[client]? = some guest) (ended : guest.Ended) (incident : Incident) :
    ∃ later, (house.step incident).guests[client]? = some later ∧ later.Ended ∧
      later.connection.queue <:+ guest.connection.queue := by
  have inside := (List.getElem?_eq_some_iff.mp known).1
  have same : ∃ later, house.guests[client]? = some later ∧ later.Ended ∧
      later.connection.queue <:+ guest.connection.queue := ⟨guest, known, ended, List.suffix_rfl⟩
  cases incident with
  | connect =>
    simp only [House.step]
    split_ifs
    · rw [List.getElem?_append_left inside]
      exact same
    · exact same
  | attend other doing =>
    cases found : house.guests[other]? with
    | none => simpa only [House.step, House.attend, found] using same
    | some host =>
      simp only [House.step, attend_of_known found]
      by_cases itself : other = client
      · subst itself
        obtain rfl : guest = host := Option.some.inj (known.symm.trans found)
        obtain ⟨stage, seated, -⟩ := attended.seated known
        obtain ⟨still, fewer, -⟩ :=
          seated.act_of_ended ended Relay.handler house.settings other house.relay doing
        exact ⟨_, List.getElem?_set_self inside, still, fewer⟩
      · rw [List.getElem?_set_ne itself]
        exact same
  | work event =>
    simp only [House.step]
    cases worked : house.relay.work? (house.guests.map Guest.connection) event with
    | none => exact same
    | some result =>
      have calm := calm_of_work? worked
      have length := calm.length
      simp only [List.length_map] at length
      have still : client < (house.after result).guests.length := by
        simpa [after, length] using inside
      have now := List.getElem?_eq_getElem still
      obtain ⟨before, found, -, -, untouched⟩ := exists_of_after calm now
      obtain rfl : guest = before := Option.some.inj (known.symm.trans found)
      refine ⟨guest, ?_, ended, List.suffix_rfl⟩
      rw [now, untouched (attended.notMem_of_ended known ended)]
  | _ => exact same

theorem Attended.exists_ended_run (attended : house.Attended)
    (known : house.guests[client]? = some guest) (ended : guest.Ended)
    (incidents : List Incident) :
    ∃ later, (house.run incidents).guests[client]? = some later ∧ later.Ended ∧
      later.connection.queue <:+ guest.connection.queue := by
  induction incidents generalizing house guest with
  | nil => exact ⟨guest, known, ended, List.suffix_rfl⟩
  | cons incident rest inductionHypothesis =>
    obtain ⟨next, found, still, fewer⟩ := attended.exists_ended_step known ended incident
    obtain ⟨last, reached, gone, least⟩ :=
      inductionHypothesis (attended.step incident) found still
    exact ⟨last, reached, gone, least.trans fewer⟩

end Ended

/-- The registry is in order. It holds each client whose handshake has completed and whose
connection has not been torn down once, and no other; the gauge of connections is their number. A
session has nothing left to do exactly when its connection has been torn down. A client that has
gone holds no subscription and is found by no query, and whatever happens next, nothing is queued
for it. When all clients have gone, the registry is empty and the gauge at zero. -/
structure Orderly (house : House) : Prop where
  tracked : ∀ client, client ∈ house.clients ↔
    ∃ guest, house.guests[client]? = some guest ∧ guest.Completed ∧ ¬guest.Ended
  once : house.clients.Nodup
  gauge : house.relay.hub.tally.get .connections = house.clients.length
  ended : ∀ guest ∈ house.guests, guest.Ended ↔ guest.duty.tasks = []
  gone : ∀ client guest, house.guests[client]? = some guest → guest.Ended →
    house.relay.hub.registry.subscriptions? client = none ∧
      (∀ query, client ∉ house.relay.hub.registry.matching query) ∧
      ∀ incidents, ∃ later, (house.run incidents).guests[client]? = some later ∧ later.Ended ∧
        later.connection.queue <:+ guest.connection.queue
  empty : (∀ guest ∈ house.guests, guest.Ended) →
    house.relay.hub.registry.entries = [] ∧ house.relay.hub.tally.get .connections = 0

theorem Attended.mem_clients_iff {house : House} (attended : house.Attended) (client : Nat) :
    client ∈ house.clients ↔
      ∃ guest, house.guests[client]? = some guest ∧ guest.Completed ∧ ¬guest.Ended := by
  constructor
  · intro mem
    have known := List.getElem?_eq_getElem (attended.within mem)
    obtain ⟨stage, seated, tracked⟩ := attended.seated known
    exact ⟨_, known, seated.present_iff.mp (tracked.mp mem)⟩
  · rintro ⟨guest, known, present⟩
    obtain ⟨stage, seated, tracked⟩ := attended.seated known
    exact tracked.mpr (seated.present_iff.mpr present)

/-- In every run the registry is in order at every moment. -/
theorem orderly_run (settings : Session.Settings) (network : String) (incidents : List Incident) :
    ((start settings network).run incidents).Orderly := by
  have attended := (attended_start settings network).run incidents
  generalize (start settings network).run incidents = house at attended
  refine ⟨attended.mem_clients_iff, attended.accurate.distinct, attended.accurate.gauge,
    fun guest mem => ?_, fun client guest known ended => ⟨?_, fun query found => ?_, ?_⟩,
    fun all => ?_⟩
  · obtain ⟨client, known⟩ := List.mem_iff_getElem?.mp mem
    obtain ⟨stage, seated, -⟩ := attended.seated known
    exact seated.ended
  · exact Registry.subscriptions?_eq_none_iff.mpr (attended.notMem_of_ended known ended)
  · exact attended.notMem_of_ended known ended (Registry.mem_clients_of_matching found)
  · exact attended.exists_ended_run known ended
  · have nobody : house.clients = [] := by
      rw [List.eq_nil_iff_forall_not_mem]
      intro client mem
      obtain ⟨guest, known, -, here⟩ := (attended.mem_clients_iff client).mp mem
      exact here (all guest (List.mem_of_getElem? known))
    have gauge := attended.accurate.gauge
    change _ = ((house.clients.length : Nat) : Int) at gauge
    rw [nobody] at gauge
    exact ⟨List.map_eq_nil_iff.mp nobody, gauge⟩

/-- Two clients connect. One completes its handshake, the other asks for the policy and is gone. -/
def visit : List Incident :=
  [.connect, .connect,
    .attend 0 (.arrive (.data (Utf8.encode ("GET / HTTP/1.1\r\nSec-WebSocket-Version: 13\r\n" ++
      "Sec-WebSocket-Key: dGhlIHNhbXBsZSBub25jZQ==\r\n\r\n")))),
    .attend 0 .proceed,
    .attend 1 (.arrive (.data (Utf8.encode "<policy-file-request/>\x00"))),
    .attend 1 .proceed, .attend 1 .proceed]

/-- The stream of the first client ends. -/
def leave : List Incident :=
  [.attend 0 .proceed, .attend 0 (.arrive .endOfStream), .attend 0 .proceed]

example : ((start ⟨"ws", [], 100⟩ "bitcoincash").run visit).clients = [0] := by
  decide +kernel

example : ((start ⟨"ws", [], 100⟩ "bitcoincash").run (visit ++ leave)).clients = [] := by
  decide +kernel

end House

end CashHerald.Hub
