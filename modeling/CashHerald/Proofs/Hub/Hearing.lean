import CashHerald.Proofs.Hub.Shifts

/-!
What clients hear during a shift in which no subscription changes and nobody stops or starts to be
reached. Main statement: what is announced of each event is told to each client in the order in
which it is handled, and of nothing but these announcements is anybody told by the workers.
-/

namespace CashHerald.Hub.Shift

/-- All that a client has got, and what is still queued for it. -/
def received (shift : Shift) (client : Nat) : List Octets :=
  shift.taken client ++ ((shift.connections[client]?).map (·.messages)).getD []

/-- A change of a shift that leaves the subscriptions and who is reached as they are, and takes
nothing back. -/
structure Kept (shift later : Shift) : Prop where
  registry : later.relay.hub.registry = shift.relay.hub.registry
  clients : ∀ (client : Nat) (connection : Session.Connection),
    shift.connections[client]? = some connection →
      ∃ changed, later.connections[client]? = some changed ∧ connection.SameEars changed ∧
        shift.received client <+: later.received client

/-- Every act of a run leaves the subscriptions and who is reached as they are. -/
def Steady (shift : Shift) : List Act → Prop
  | [] => True
  | act :: rest => Kept shift (shift.act act) ∧ Steady (shift.act act) rest

/-- An act that is not part of the work on the feed. -/
def isAside : Act → Bool
  | .tells _ _ => true
  | .meanwhile _ => true
  | _ => false

/-- What a client gets that is not from the work on the feed. -/
def aside (client : Nat) (shift : Shift) : List Act → List Octets
  | [] => []
  | act :: rest =>
    (if isAside act then
      ((shift.act act).received client).drop (shift.received client).length else []) ++
        aside client (shift.act act) rest

/-- The messages with some tag. -/
def tagged (tag : Option FeedEvent) (told : List (Option FeedEvent × Octets)) : List Octets :=
  (told.filter (·.1 = tag)).map Prod.snd

/-- Between two moments of a shift, a client gets the announcements of what is handled, those of
each event in order, and some asides. -/
def Hears (client : Nat) (copies : Decoded → List Octets) (asides : List Octets)
    (shift later : Shift) : Prop :=
  ∃ fresh told, later.handled = shift.handled ++ fresh ∧
    later.received client = shift.received client ++ told.map Prod.snd ∧
    (∀ event, tagged (some event) told = (fresh.filter (·.event = event)).flatMap copies) ∧
    tagged none told = asides

section Hears

variable {client : Nat} {copies : Decoded → List Octets} {shift later : Shift}
  {connection : Session.Connection} {event : FeedEvent}

theorem tagged_append (tag : Option FeedEvent) (front back : List (Option FeedEvent × Octets)) :
    tagged tag (front ++ back) = tagged tag front ++ tagged tag back := by
  simp only [tagged, List.filter_append, List.map_append]

/-- Messages that all have one tag. -/
theorem tagged_map (tag other : Option FeedEvent) (messages : List Octets) :
    tagged tag (messages.map (other, ·)) = if other = tag then messages else [] := by
  unfold tagged
  split
  · rename_i same
    simp [same, List.filter_map, Function.comp_def]
  · rename_i differs
    simp [differs, List.filter_map, Function.comp_def]

/-- Nothing is heard while nothing is handled and nothing is received. -/
theorem hears_nothing (handled : later.handled = shift.handled)
    (received : later.received client = shift.received client) :
    Hears client copies [] shift later :=
  ⟨[], [], by simp [handled], by simp [received], fun _ => rfl, rfl⟩

theorem hears_aside (handled : later.handled = shift.handled)
    (received : shift.received client <+: later.received client) :
    Hears client copies ((later.received client).drop (shift.received client).length) shift
      later := by
  obtain ⟨asides, more⟩ := received
  refine ⟨[], asides.map (none, ·), by simp [handled], ?_, fun event => ?_, ?_⟩
  · simp [← more, Function.comp_def]
  · simp [tagged_map]
  · simp [tagged_map, ← more]

/-- An announcement is heard. -/
theorem hears_announcement {decoded : Decoded}
    (handled : later.handled = shift.handled ++ [decoded])
    (received : later.received client = shift.received client ++ copies decoded) :
    Hears client copies [] shift later := by
  refine ⟨[decoded], (copies decoded).map (some decoded.event, ·), handled, ?_, fun event => ?_, ?_⟩
  · simp [received, Function.comp_def]
  · by_cases same : decoded.event = event <;> simp [tagged_map, same]
  · simp [tagged_map]

theorem Hears.trans {first second third : Shift} {front back : List Octets}
    (early : Hears client copies front first second)
    (late : Hears client copies back second third) :
    Hears client copies (front ++ back) first third := by
  obtain ⟨fresh, told, handled, received, fed, aside⟩ := early
  obtain ⟨more, others, handledMore, receivedMore, fedMore, asideMore⟩ := late
  refine ⟨fresh ++ more, told ++ others, ?_, ?_, fun event => ?_, ?_⟩
  · rw [handledMore, handled, List.append_assoc]
  · rw [receivedMore, received, List.map_append, List.append_assoc]
  · rw [tagged_append, fed, fedMore, List.filter_append, List.flatMap_append]
  · rw [tagged_append, aside, asideMore]

end Hears

section Acts

variable {client : Nat} {shift later : Shift} {connection changed : Session.Connection}

theorem received_of_known (known : shift.connections[client]? = some connection) :
    shift.received client = shift.taken client ++ connection.messages := by
  simp [received, known]

theorem kept_process (shift : Shift) (event : FeedEvent) (raw : Octets) :
    (shift.process event raw).relay.hub.network = shift.relay.hub.network ∧
      (shift.process event raw).relay.hub.registry = shift.relay.hub.registry := by
  unfold process
  rcases Decoded.of? event raw with _ | decoded
  · exact ⟨rfl, rfl⟩
  · obtain ⟨network, registry, -⟩ := Decoded.kept_announce
      ((shift.relay.hub.count (.queueDepth event) (-1)).count (.decoded event) 1)
      shift.connections decoded
    exact ⟨network, registry⟩

/-- No act changes the network, and the work on the feed does not change the subscriptions. -/
theorem subscriptions_act (named : ∀ event, (shift.relay.pipeline event).event = event)
    (act : Act) :
    (shift.act act).relay.hub.network = shift.relay.hub.network ∧
      (isAside act = false →
        (shift.act act).relay.hub.registry = shift.relay.hub.registry) := by
  cases act with
  | submit event raw =>
    simp only [Shift.act, Relay.submit]
    split <;> exact ⟨rfl, fun _ => rfl⟩
  | work event =>
    simp only [Shift.act, work?_eq (named event)]
    rcases (shift.relay.pipeline event).take? with _ | ⟨raw | _, rest⟩
    · exact ⟨rfl, fun _ => rfl⟩
    · obtain ⟨network, registry⟩ :=
        kept_process (shift.withRelay (shift.relay.withPipeline event rest)) event raw
      simp only [withRelay, hub_withPipeline] at network registry
      exact ⟨network, fun _ => registry⟩
    · simp [withRelay, hub_withPipeline]
  | close event => simp [Shift.act, withRelay, Relay.close, hub_withPipeline]
  | take client =>
    simp only [Shift.act]
    split <;> exact ⟨rfl, fun _ => rfl⟩
  | tells client event =>
    refine ⟨?_, fun fed => by cases fed⟩
    simp only [Shift.act]
    split
    · rfl
    · rename_i connection known
      simp only [Relay.handler, Session.Reaction.run_map]
      exact (shift.relay.hub.confined_handler client event connection).network
  | meanwhile connections => exact ⟨rfl, fun fed => by cases fed⟩

/-- The announcements of a value are the same as long as nothing changes that they depend on. -/
theorem copies_congr (kept : Kept shift later)
    (network : later.relay.hub.network = shift.relay.hub.network)
    (same : connection.SameEars changed) :
    Decoded.copies later.relay.hub client changed =
      Decoded.copies shift.relay.hub client connection := by
  funext decoded
  unfold Decoded.copies
  rw [same.copies, network, Decoded.targets_congr network kept.registry]

/-- What an act of the work on the feed means for a client: it is told of what is handled, and it
goes on being reached or not. -/
structure Fed (client : Nat) (connection : Session.Connection) (shift later : Shift) : Prop where
  ears : ∃ changed, later.connections[client]? = some changed ∧ connection.SameEars changed
  hears : Hears client (Decoded.copies shift.relay.hub client connection) [] shift later

/-- What changes nothing but the pipelines and the counts means nothing for a client. -/
theorem fed_nothing (known : shift.connections[client]? = some connection)
    (connections : later.connections = shift.connections)
    (handled : later.handled = shift.handled) (taken : later.taken = shift.taken) :
    Fed client connection shift later where
  ears := ⟨connection, connections ▸ known, .refl connection⟩
  hears := hears_nothing handled (by simp only [received, connections, taken])

theorem fed_process (shift : Shift) (known : shift.connections[client]? = some connection)
    (event : FeedEvent) (raw : Octets) :
    Fed client connection shift (shift.process event raw) := by
  unfold process
  rcases Decoded.of? event raw with _ | decoded
  · exact fed_nothing known rfl rfl rfl
  · obtain ⟨changed, knownLater, same, messages⟩ := Decoded.announce_getElem?
      ((shift.relay.hub.count (.queueDepth event) (-1)).count (.decoded event) 1) decoded known
    refine ⟨⟨changed, knownLater, same⟩, hears_announcement rfl ?_⟩
    rw [received_of_known knownLater, received_of_known known, messages, List.append_assoc]
    rfl

/-- The work on the feed tells a client of what is handled, and of nothing else. -/
theorem fed_act (named : ∀ event, (shift.relay.pipeline event).event = event)
    (known : shift.connections[client]? = some connection) {act : Act}
    (fed : isAside act = false) : Fed client connection shift (shift.act act) := by
  cases act with
  | submit event raw => exact fed_nothing known rfl rfl rfl
  | close event => exact fed_nothing known rfl rfl rfl
  | work event =>
    simp only [Shift.act, work?_eq (named event)]
    rcases (shift.relay.pipeline event).take? with _ | ⟨raw | _, rest⟩
    · exact fed_nothing known rfl rfl rfl
    · obtain ⟨ears, hears⟩ :=
        fed_process (shift.withRelay (shift.relay.withPipeline event rest)) known event raw
      simp only [withRelay, hub_withPipeline] at hears
      exact ⟨ears, hears⟩
    · exact fed_nothing known rfl rfl rfl
  | take taker =>
    simp only [Shift.act]
    split
    · exact fed_nothing known rfl rfl rfl
    · rename_i taking found
      have length : taker < shift.connections.length := (List.getElem?_eq_some_iff.mp found).1
      by_cases same : taker = client
      · subst same
        obtain rfl : taking = connection := Option.some.inj (found.symm.trans known)
        refine ⟨⟨taking.take.2, List.getElem?_set_self length, rfl, fun _ => rfl⟩,
          hears_nothing rfl ?_⟩
        simp [received, known, List.getElem?_set_self length, Session.Connection.take,
          Session.Connection.messages]
      · have others : (shift.connections.set taker taking.take.2)[client]? = some connection :=
          (List.getElem?_set_ne same).trans known
        refine ⟨⟨connection, others, .refl connection⟩, hears_nothing rfl ?_⟩
        simp [received, known, others, Function.update_of_ne (Ne.symm same)]
  | tells speaker event => cases fed
  | meanwhile connections => cases fed

/-- The work on the feed keeps the subscriptions and who is reached. -/
theorem kept_act (named : ∀ event, (shift.relay.pipeline event).event = event) {act : Act}
    (fed : isAside act = false) : Kept shift (shift.act act) := by
  refine ⟨(subscriptions_act named act).2 fed, fun client connection known => ?_⟩
  obtain ⟨⟨changed, knownLater, same⟩, fresh, told, -, received, -⟩ := fed_act named known fed
  exact ⟨changed, knownLater, same, told.map Prod.snd, received.symm⟩

/-- An aside handles nothing. -/
theorem handled_act_of_aside {act : Act} (besides : isAside act = true) :
    (shift.act act).handled = shift.handled := by
  cases act with
  | tells client event =>
    simp only [Shift.act]
    split <;> rfl
  | meanwhile connections => rfl
  | submit event raw => cases besides
  | work event => cases besides
  | close event => cases besides
  | take client => cases besides

/-- As long as the subscriptions and who is reached stay the same, a client hears of an act what is
handled in it, or an aside. -/
theorem hears_act (named : ∀ event, (shift.relay.pipeline event).event = event)
    (known : shift.connections[client]? = some connection) (act : Act)
    (kept : Kept shift (shift.act act)) :
    Hears client (Decoded.copies shift.relay.hub client connection)
      (if isAside act then
        ((shift.act act).received client).drop (shift.received client).length else [])
      shift (shift.act act) := by
  split
  · rename_i besides
    obtain ⟨_, -, -, grown⟩ := kept.clients client connection known
    exact hears_aside (handled_act_of_aside besides) grown
  · rename_i fed
    exact (fed_act named known (Bool.eq_false_of_not_eq_true fed)).hears

/-- In a steady run a client hears all that is handled, that of each event in order. -/
theorem hears_run (named : ∀ event, (shift.relay.pipeline event).event = event)
    (known : shift.connections[client]? = some connection) {acts : List Act}
    (steady : shift.Steady acts) :
    Hears client (Decoded.copies shift.relay.hub client connection) (shift.aside client acts)
      shift (shift.run acts) := by
  induction acts generalizing shift connection with
  | nil => exact hears_nothing rfl rfl
  | cons act rest inductionHypothesis =>
    obtain ⟨kept, steadyLater⟩ := steady
    obtain ⟨changed, knownLater, same, -⟩ := kept.clients client connection known
    have late := inductionHypothesis (named_act named act) knownLater steadyLater
    rw [copies_congr kept (subscriptions_act named act).1 same] at late
    exact (hears_act named known act kept).trans late

/-- A run that is all work on the feed is steady, and nobody is told of anything besides. -/
theorem steady_of_fed (named : ∀ event, (shift.relay.pipeline event).event = event)
    {acts : List Act} (fed : ∀ act ∈ acts, isAside act = false) :
    shift.Steady acts ∧ ∀ client, shift.aside client acts = [] := by
  induction acts generalizing shift with
  | nil => exact ⟨trivial, fun _ => rfl⟩
  | cons act rest inductionHypothesis =>
    have own := fed act List.mem_cons_self
    obtain ⟨steady, nothing⟩ := inductionHypothesis (named_act named act)
      fun other mem => fed other (List.mem_cons_of_mem act mem)
    refine ⟨⟨kept_act named own, steady⟩, fun client => ?_⟩
    simp [aside, own, nothing]

end Acts

end CashHerald.Hub.Shift
