import CashHerald.Proofs.Hub.House
import CashHerald.Proofs.Session.Alone

/-!
The server that runs, next to the server one step at a time. Main statement: whatever is asked of a
server with a relay, from connecting a client to closing a pipeline, some incidents bring the house
to show the same.
-/

namespace CashHerald.Hub

open Session (Guest Doing Arrival)

/-- What may be asked of a server with a relay: a client connects, the server stops, something
arrives for a client, every writer writes its queue, a payload is submitted, a worker takes a job,
or a pipeline is closed. -/
inductive Service where
  | connect
  | stop
  | arrive (client : Nat) (arrival : Arrival)
  | settle
  | submit (event : FeedEvent) (raw : Octets)
  | work (event : FeedEvent)
  | close (event : FeedEvent)

namespace Service

/-- The server after a service. -/
def serve (server : Session.Server Relay) : Service → Session.Server Relay
  | .connect => server.connect.1
  | .stop => server.stop
  | .arrive client arrival => server.arrive Relay.handler client arrival
  | .settle => (server.settle Relay.handler).2
  | .submit event raw =>
    server.fromOutside fun relay connections => ((relay.submit event raw).1, connections)
  | .work event =>
    server.fromOutside fun relay connections =>
      (relay.work? connections event).getD (relay, connections)
  | .close event => server.fromOutside fun relay connections => (relay.close event, connections)

/-- The server after some services. -/
def serveAll (server : Session.Server Relay) (services : List Service) : Session.Server Relay :=
  services.foldl serve server

end Service

namespace House

/-- A house and a server show the same. -/
structure Shows (house : House) (server : Session.Server Relay) : Prop where
  settings : house.settings = server.settings
  guests : house.guests.map Guest.view = server.sessions.map Guest.viewOf
  relay : house.relay = server.memory
  listening : house.listening = server.listening

theorem shows_start (settings : Session.Settings) (network : String) :
    (start settings network).Shows (.start settings (.start network)) :=
  ⟨rfl, rfl, rfl, rfl⟩

theorem run_append (house : House) (front back : List Incident) :
    house.run (front ++ back) = (house.run front).run back :=
  List.foldl_append

section Serve

variable {house : House} {server : Session.Server Relay}

/-- What is done for a client, one thing after another. -/
theorem run_attend {client : Nat} {guest : Guest} (known : house.guests[client]? = some guest)
    (doings : List Doing) :
    house.run (doings.map (.attend client)) =
      ⟨house.settings,
        house.guests.set client
          (guest.acts Relay.handler house.settings client house.relay doings).1,
        (guest.acts Relay.handler house.settings client house.relay doings).2,
        house.listening⟩ := by
  induction doings generalizing house guest with
  | nil =>
    obtain ⟨inside, rfl⟩ := List.getElem?_eq_some_iff.mp known
    simp [run, Guest.acts]
  | cons doing rest inductionHypothesis =>
    have inside := (List.getElem?_eq_some_iff.mp known).1
    have first := attend_of_known known doing
    have next : (house.attend client doing).guests[client]? =
        some (guest.act Relay.handler house.settings client house.relay doing).1 := by
      rw [first]
      exact List.getElem?_set_self inside
    have later := inductionHypothesis next
    rw [first, List.set_set] at later
    rw [List.map_cons]
    refine Eq.trans ?_ later
    rw [← first]
    rfl

/-- What a client is led to is what the house comes to show of it, and it shows the others as
before. -/
theorem exists_run_of_leads {client : Nat} {session : Session.Session} {relay : Relay}
    {guest : Guest} (known : house.guests[client]? = some guest)
    (leads : guest.Leads Relay.handler house.settings client house.relay
      (Guest.viewOf session) relay) :
    ∃ incidents, (house.run incidents).settings = house.settings ∧
      (house.run incidents).guests.map Guest.view =
        (house.guests.map Guest.view).set client (Guest.viewOf session) ∧
      (house.run incidents).relay = relay ∧
      (house.run incidents).listening = house.listening := by
  obtain ⟨doings, shown, remembered⟩ := leads
  refine ⟨doings.map (.attend client), ?_⟩
  rw [run_attend known]
  exact ⟨rfl, by rw [List.map_set, shown], remembered, rfl⟩

/-- A client that shows what a session shows is that session with some notes. -/
theorem exists_known_of_views {guests : List Guest} {sessions : List Session.Session}
    (same : guests.map Guest.view = sessions.map Guest.viewOf) {client : Nat}
    {session : Session.Session} (known : sessions[client]? = some session) :
    ∃ journal, guests[client]? = some (.ofSession session journal) := by
  have shown := congrArg (·[client]?) same
  simp only [List.getElem?_map, known, Option.map_some, Option.map_eq_some_iff] at shown
  obtain ⟨⟨connection, duty, journal⟩, found, alike⟩ := shown
  cases alike
  exact ⟨journal, found⟩

theorem Shows.arrive (shows : house.Shows server) (client : Nat) (arrival : Arrival) :
    ∃ incidents, (house.run incidents).Shows (server.arrive Relay.handler client arrival) := by
  unfold Session.Server.arrive
  cases known : server.sessions[client]? with
  | none => exact ⟨[], shows⟩
  | some session =>
    obtain ⟨journal, found⟩ := exists_known_of_views shows.guests known
    obtain ⟨incidents, settings, guests, relay, listening⟩ := exists_run_of_leads found
      (Guest.leads_step Relay.handler house.settings client session house.relay arrival journal)
    refine ⟨incidents, settings.trans shows.settings, ?_, ?_, listening.trans shows.listening⟩
    · rw [guests, shows.guests, List.map_set, shows.settings, shows.relay]
    · rw [relay, shows.settings, shows.relay]

/-- The clients are settled one after another; those in front have been settled before. -/
theorem exists_run_settleFrom (front rest : List Session.Session)
    (shown : house.guests.map Guest.view = (front ++ rest).map Guest.viewOf) :
    ∃ incidents, (house.run incidents).settings = house.settings ∧
      (house.run incidents).guests.map Guest.view =
        (front ++ (Session.Server.settleFrom Relay.handler house.settings front.length house.relay
          rest).2.1).map Guest.viewOf ∧
      (house.run incidents).relay =
        (Session.Server.settleFrom Relay.handler house.settings front.length house.relay rest).2.2 ∧
      (house.run incidents).listening = house.listening := by
  induction rest generalizing front house with
  | nil => exact ⟨[], rfl, shown, rfl, rfl⟩
  | cons session rest inductionHypothesis =>
    have known : (front ++ session :: rest)[front.length]? = some session := by simp
    obtain ⟨journal, found⟩ := exists_known_of_views shown known
    obtain ⟨incidents, settings, guests, relay, listening⟩ := exists_run_of_leads found
      (Guest.leads_settleSession Relay.handler house.settings front.length session house.relay
        journal)
    generalize same : Session.Server.settleSession Relay.handler house.settings front.length session
      house.relay = result at guests relay
    obtain ⟨octets, settled, later⟩ := result
    have next : (house.run incidents).guests.map Guest.view =
        ((front ++ [settled]) ++ rest).map Guest.viewOf := by
      rw [guests, shown]
      simp
    obtain ⟨more, kept, views, last, still⟩ := inductionHypothesis (front ++ [settled]) next
    rw [settings, relay, List.length_append, List.length_singleton] at views last
    refine ⟨incidents ++ more, ?_⟩
    rw [run_append]
    refine ⟨kept.trans settings, ?_, ?_, still.trans listening⟩
    · simpa [Session.Server.settleFrom, same] using views
    · simpa [Session.Server.settleFrom, same] using last

theorem Shows.settle (shows : house.Shows server) :
    ∃ incidents, (house.run incidents).Shows (server.settle Relay.handler).2 := by
  obtain ⟨incidents, settings, guests, relay, listening⟩ :=
    exists_run_settleFrom [] server.sessions shows.guests
  rw [shows.settings, shows.relay] at guests relay
  exact ⟨incidents, settings.trans shows.settings, guests, relay,
    listening.trans shows.listening⟩

theorem map_view_zipWith (guests : List Guest) (connections : List Session.Connection) :
    (List.zipWith Guest.withConnection guests connections).map Guest.view =
      List.zipWith (fun shown connection => (connection, shown.2)) (guests.map Guest.view)
        connections := by
  rw [List.map_zipWith, List.zipWith_map_left]
  rfl

/-- A change from outside changes the connections, and what the sessions are at stays as it is. -/
theorem Shows.fromOutside (shows : house.Shows server)
    (change : Relay → List Session.Connection → Relay × List Session.Connection) :
    (house.after (change house.relay (house.guests.map Guest.connection))).Shows
      (server.fromOutside change) := by
  have connections : house.guests.map Guest.connection =
      server.sessions.map Session.Session.connection := by
    have same := congrArg (List.map Prod.fst) shows.guests
    simpa [Guest.view, Guest.viewOf, Function.comp_def] using same
  refine ⟨shows.settings, ?_, ?_, shows.listening⟩
  · simp only [after, Session.Server.fromOutside, shows.relay, connections]
    rw [map_view_zipWith, shows.guests, List.map_zipWith, List.zipWith_map_left]
    rfl
  · simp only [after, Session.Server.fromOutside, shows.relay, connections]

/-- A change from outside that leaves the connections alone changes the relay only. -/
theorem after_same (house : House) (relay : Relay) :
    house.after (relay, house.guests.map Guest.connection) = house.withRelay relay := by
  have same : List.zipWith Guest.withConnection house.guests
      (house.guests.map Guest.connection) = house.guests := by
    rw [List.zipWith_map_right, List.zipWith_self]
    exact List.map_id _
  simp only [after, withRelay, same]

/-- Whatever is asked of a server, some incidents bring about. -/
theorem Shows.serve (shows : house.Shows server) (service : Service) :
    ∃ incidents, (house.run incidents).Shows (service.serve server) := by
  cases service with
  | connect =>
    refine ⟨[.connect], ?_⟩
    simp only [run, List.foldl_cons, List.foldl_nil, House.step, Service.serve,
      Session.Server.connect, shows.listening]
    split_ifs
    · refine ⟨shows.settings, ?_, shows.relay, rfl⟩
      rw [List.map_append, List.map_append, shows.guests]
      rfl
    · exact shows
  | stop => exact ⟨[.stop], shows.settings, shows.guests, shows.relay, rfl⟩
  | arrive client arrival => exact shows.arrive client arrival
  | settle => exact shows.settle
  | submit event raw =>
    refine ⟨[.submit event raw], ?_⟩
    have changed := shows.fromOutside fun relay connections =>
      ((relay.submit event raw).1, connections)
    rwa [after_same] at changed
  | work event =>
    refine ⟨[.work event], ?_⟩
    have changed := shows.fromOutside fun relay connections =>
      (relay.work? connections event).getD (relay, connections)
    simp only [run, List.foldl_cons, List.foldl_nil, House.step]
    cases worked : house.relay.work? (house.guests.map Guest.connection) event with
    | none =>
      rw [worked, Option.getD_none, after_same] at changed
      exact changed
    | some result =>
      rw [worked, Option.getD_some] at changed
      exact changed
  | close event =>
    refine ⟨[.close event], ?_⟩
    have changed := shows.fromOutside fun relay connections => (relay.close event, connections)
    rwa [after_same] at changed

/-- What a server holds at any time, a house comes to show. -/
theorem exists_shows_serveAll (settings : Session.Settings) (network : String)
    (services : List Service) :
    ∃ incidents, ((start settings network).run incidents).Shows
      (Service.serveAll (.start settings (.start network)) services) := by
  induction services using List.reverseRecOn with
  | nil => exact ⟨[], shows_start settings network⟩
  | append_singleton front last inductionHypothesis =>
    obtain ⟨early, shows⟩ := inductionHypothesis
    obtain ⟨late, shown⟩ := shows.serve last
    refine ⟨early ++ late, ?_⟩
    rw [run_append, Service.serveAll, List.foldl_append]
    exact shown

end Serve

end House

end CashHerald.Hub
