import CashHerald.Hub.Dispatch
import CashHerald.Proofs.Hub.Contents

/-!
Announcements as each client gets them. What a broadcast does to a connection depends on how often
its client is a target, and on nothing that happens to other clients. Main statement: every client
that can be reached gets the text that announces a transaction or a block as often as its
subscriptions ask for it, every other one that is to get it is closed, and the counters tell how
often either happened.
-/

namespace CashHerald

namespace Session

/-- The octets of an item that is not an end. -/
def Outbound.data? : Outbound → Option Octets
  | .data octets => some octets
  | .close _ => none

namespace Connection

/-- A connection that gets what is sent on it: it is open, and its writer is there. -/
def isReachable (connection : Connection) : Bool :=
  connection.state = .opened && connection.attached

/-- The data that is queued on a connection. -/
def messages (connection : Connection) : List Octets :=
  connection.queue.filterMap Outbound.data?

/-- A connection in a dialect that has messages. -/
def Converses (connection : Connection) : Prop :=
  ∃ details, connection.details = some details ∧
    (details.dialect = .hybi13 ∨ details.dialect = .draft76)

/-- The connection with some more frames in its queue. -/
def queueing (connection : Connection) (frames : List Octets) : Connection :=
  ⟨connection.state, connection.details, connection.attached,
    connection.queue ++ frames.map .data⟩

/-- The connection after a text has been broadcast to it. -/
def hear (text : String) (connection : Connection) : Connection :=
  match connection.sendText text with
  | (later, .ok _) => later
  | (later, .error _) => later.close Wire.CloseCode.internalError

variable {connection : Connection} {text : String} {frame : Octets}

/-- Every text has a frame in a dialect that has messages. -/
theorem Converses.exists_frame? (converses : connection.Converses) (text : String) :
    ∃ frame, connection.frame? .text (Utf8.encode text) = some frame := by
  obtain ⟨details, known, same | same⟩ := converses
  · exact ⟨_, by simp only [frame?, known, same]; rfl⟩
  · refine ⟨Wire.Delimited.encode text, ?_⟩
    simp only [frame?, known, same, Wire.Dialect.encode?, Utf8.decode?_eq_some_iff.mpr rfl]
    rfl

theorem sendText_of_reachable (reachable : connection.isReachable = true)
    (framed : connection.frame? .text (Utf8.encode text) = some frame) :
    connection.sendText text = (connection.queueing [frame], .ok ()) := by
  obtain ⟨state, attached⟩ : connection.state = .opened ∧ connection.attached = true := by
    simpa [isReachable] using reachable
  have known : connection.details ≠ none := by
    intro missing
    simp [frame?, missing] at framed
  have accepted : connection.refusal? .text (Utf8.encode text) = none := by
    simp [refusal?, state, known, attached]
  simp only [sendText, send, accepted, framed, enqueue, attached, if_pos, queueing]
  rfl

theorem sendText_of_unreachable (unreachable : connection.isReachable = false)
    (framed : connection.frame? .text (Utf8.encode text) = some frame) :
    ∃ fault, connection.sendText text = (connection, .error fault) := by
  obtain ⟨fault, refused⟩ : ∃ fault,
      connection.refusal? .text (Utf8.encode text) = some fault := by
    unfold refusal?
    cases state : connection.state with
    | opened =>
      have lost : connection.attached = false := by simpa [isReachable, state] using unreachable
      simp only [framed, lost, Option.isSome_some, true_and, if_true]
      split <;> exact ⟨_, rfl⟩
    | _ => exact ⟨_, rfl⟩
  exact ⟨fault, send_of_refusal?_eq_some refused⟩

/-- A connection that is reached hears a text once more each time. -/
theorem iterate_hear_of_reachable (reachable : connection.isReachable = true)
    (framed : connection.frame? .text (Utf8.encode text) = some frame) (times : Nat) :
    (hear text)^[times] connection = connection.queueing (List.replicate times frame) := by
  induction times generalizing connection with
  | zero => simp [queueing]
  | succ times inductionHypothesis =>
    have first : hear text connection = connection.queueing [frame] := by
      simp only [hear, sendText_of_reachable reachable framed]
    have rest := @inductionHypothesis (connection.queueing [frame]) reachable framed
    rw [Function.iterate_succ_apply, first, rest]
    simp [queueing, List.replicate_succ]

theorem state_close_ne_opened (connection : Connection) (code : UInt16) :
    (connection.close code).state ≠ .opened := by
  intro opened
  have unavailable := isAvailable_close connection code
  simp [isAvailable, opened] at unavailable

theorem isReachable_close (connection : Connection) (code : UInt16) :
    (connection.close code).isReachable = false := by
  simp [isReachable, state_close_ne_opened]

/-- A connection that is not reached is closed the first time. -/
theorem iterate_hear_of_unreachable (unreachable : connection.isReachable = false)
    (framed : connection.frame? .text (Utf8.encode text) = some frame) (times : Nat) :
    (hear text)^[times] connection =
      if times = 0 then connection else connection.close Wire.CloseCode.internalError := by
  have closes {other : Connection} (lost : other.isReachable = false)
      (framed : other.frame? .text (Utf8.encode text) = some frame) :
      hear text other = other.close Wire.CloseCode.internalError := by
    obtain ⟨fault, refused⟩ := sendText_of_unreachable lost framed
    simp only [hear, refused]
  induction times with
  | zero => rfl
  | succ times inductionHypothesis =>
    rw [Function.iterate_succ_apply', inductionHypothesis, if_neg (Nat.succ_ne_zero times)]
    split
    · exact closes unreachable framed
    · have same : (connection.close Wire.CloseCode.internalError).frame? .text
          (Utf8.encode text) = some frame := by
        simpa only [frame?, details_close] using framed
      rw [closes (isReachable_close _ _) same, close_close]

/-- Closing a connection queues no data. -/
theorem messages_close (connection : Connection) (code : UInt16) :
    (connection.close code).messages = connection.messages := by
  unfold close
  split
  · unfold enqueue
    split <;> simp [messages, withState, Outbound.data?]
  · rfl

/-- A connection that is not reached gets no data, and it is left alone or closed. -/
theorem messages_iterate_hear (unreachable : connection.isReachable = false)
    (framed : connection.frame? .text (Utf8.encode text) = some frame) (times : Nat) :
    ((hear text)^[times] connection).messages = connection.messages := by
  rw [iterate_hear_of_unreachable unreachable framed]
  split
  · rfl
  · exact messages_close _ _

theorem state_iterate_hear (unreachable : connection.isReachable = false)
    (framed : connection.frame? .text (Utf8.encode text) = some frame) {times : Nat}
    (some : 0 < times) : ((hear text)^[times] connection).state ≠ .opened := by
  rw [iterate_hear_of_unreachable unreachable framed, if_neg some.ne']
  exact state_close_ne_opened _ _

theorem isReachable_hear (converses : connection.Converses) (text : String) :
    (hear text connection).isReachable = connection.isReachable := by
  obtain ⟨frame, framed⟩ := converses.exists_frame? text
  cases reachable : connection.isReachable with
  | true =>
    have heard := iterate_hear_of_reachable reachable framed 1
    rw [Function.iterate_one] at heard
    rw [heard]
    exact reachable
  | false =>
    have heard := iterate_hear_of_unreachable reachable framed 1
    rw [Function.iterate_one] at heard
    rw [heard]
    exact isReachable_close _ _

theorem details_hear (text : String) (connection : Connection) :
    (hear text connection).details = connection.details := by
  have kept : (connection.sendText text).1.details = connection.details :=
    details_send connection .text (Utf8.encode text)
  unfold hear
  split <;> rename_i same <;> rw [same] at kept
  · exact kept
  · rw [details_close]
    exact kept

end Connection

end Session

namespace Hub

namespace Registry

/-- The clients that are tracked. -/
def clients (registry : Registry) : List Nat :=
  registry.entries.map Entry.client

/-- The subscriptions that a client holds. -/
def held (registry : Registry) (client : Nat) : List Subscription :=
  (registry.subscriptions? client).getD []

/-- A client that is tracked once is found once by a query that one of its subscriptions matches,
and not at all by others. -/
theorem count_matching {registry : Registry} (distinct : registry.clients.Nodup) (client : Nat)
    (query : Subscription) :
    (registry.matching query).count client =
      if (registry.held client).any (·.agrees query) then 1 else 0 := by
  obtain ⟨entries⟩ := registry
  unfold clients at distinct
  unfold matching held subscriptions?
  induction entries with
  | nil => rfl
  | cons entry rest inductionHypothesis =>
    obtain ⟨alone, distinct⟩ := List.nodup_cons.mp distinct
    have later := inductionHypothesis distinct
    by_cases here : entry.client = client
    · have nowhere : (rest.find? (·.client = client)) = none := by
        rw [List.find?_eq_none]
        intro other mem same
        exact alone (here ▸ List.mem_map.mpr ⟨other, mem, of_decide_eq_true same⟩)
      simp only [nowhere, Option.map_none, Option.getD_none, List.any_nil, Bool.false_eq_true,
        if_false] at later
      by_cases found : entry.subscriptions.any (·.agrees query) = true
      · simp [here, found, later]
      · simp [here, found, later]
    · by_cases found : entry.subscriptions.any (·.agrees query) = true
      · simpa [here, found] using later
      · simpa [here, found] using later

end Registry

theorem Registry.mem_clients_of_matching {registry : Registry} {query : Subscription}
    {client : Nat} (found : client ∈ registry.matching query) : client ∈ registry.clients := by
  obtain ⟨entry, mem, rfl⟩ := List.mem_map.mp found
  exact List.mem_map.mpr ⟨entry, (List.mem_filter.mp mem).1, rfl⟩

variable {hub : Hub} {connections : List Session.Connection} {event : FeedEvent} {text : String}

theorem mem_clients_of_transactionTargets {transaction : Ledger.Transaction} {client : Nat}
    (found : client ∈ hub.transactionTargets transaction) : client ∈ hub.registry.clients := by
  rcases List.mem_append.mp found with output | all
  · obtain ⟨output, -, found⟩ := List.mem_flatMap.mp output
    split at found
    · cases found
    · exact Registry.mem_clients_of_matching found
  · exact Registry.mem_clients_of_matching all

/-- A client whose connection would be reached. -/
def reaches (connections : List Session.Connection) (client : Nat) : Bool :=
  (connections[client]?).any Session.Connection.isReachable

/-- A client whose connection is in a dialect that has messages. -/
def Converses (connections : List Session.Connection) (client : Nat) : Prop :=
  ∃ connection, connections[client]? = some connection ∧ connection.Converses

/-- A text that is sent to a client is heard there and nowhere else. -/
theorem sendTo_getElem? (client other : Nat) :
    (hub.sendTo event text connections client).2[other]? =
      if client = other then (connections[other]?).map (.hear text) else connections[other]? := by
  unfold sendTo
  split
  · rename_i missing
    split
    · rename_i same
      rw [← same, missing]
      rfl
    · rfl
  · rename_i connection known
    have within : client < connections.length := (List.getElem?_eq_some_iff.mp known).1
    split <;> rename_i sent <;> split <;> rename_i same
    · rw [← same, known, List.getElem?_set_self within]
      simp only [Option.map_some, Session.Connection.hear, sent]
    · rw [List.getElem?_set_ne same]
    · rw [← same, known, List.getElem?_set_self within]
      simp only [Option.map_some, Session.Connection.hear, sent]
    · rw [List.getElem?_set_ne same]

/-- A client hears a broadcast as often as it is a target, whatever becomes of the others. -/
theorem broadcast_getElem? (event : FeedEvent) (text : String) (hub : Hub)
    (connections : List Session.Connection) (targets : List Nat) (client : Nat) :
    (hub.broadcast event text connections targets).2[client]? =
      (connections[client]?).map (Session.Connection.hear text)^[targets.count client] := by
  unfold broadcast
  induction targets generalizing hub connections with
  | nil => simp
  | cons target rest inductionHypothesis =>
    rw [List.foldl_cons, inductionHypothesis, sendTo_getElem?]
    by_cases same : target = client
    · subst same
      rw [if_pos rfl, List.count_cons_self, Option.map_map]
      rfl
    · rw [if_neg same, List.count_cons_of_ne same]

theorem length_broadcast (hub : Hub) (connections : List Session.Connection)
    (targets : List Nat) :
    (hub.broadcast event text connections targets).2.length = connections.length := by
  unfold broadcast
  induction targets generalizing hub connections with
  | nil => rfl
  | cons target rest inductionHypothesis =>
    rw [List.foldl_cons, inductionHypothesis]
    unfold sendTo
    split
    · rfl
    · split <;> exact List.length_set

/-- A send is counted as one or the other, and the hub stays as it is otherwise. -/
theorem fst_sendTo {client : Nat} (converses : Converses connections client) :
    (hub.sendTo event text connections client).1 =
      hub.count (if reaches connections client then .broadcasts event
        else .broadcastFailures event) 1 := by
  obtain ⟨connection, known, converses⟩ := converses
  obtain ⟨frame, framed⟩ := converses.exists_frame? text
  have reached : reaches connections client = connection.isReachable := by
    simp only [reaches, known, Option.any_some]
  cases reachable : connection.isReachable with
  | true =>
    simp only [sendTo, known, Session.Connection.sendText_of_reachable reachable framed, reached,
      reachable, if_true]
  | false =>
    obtain ⟨fault, refused⟩ := Session.Connection.sendText_of_unreachable reachable framed
    simp only [sendTo, known, refused, reached, reachable, Bool.false_eq_true, if_false]

theorem reaches_sendTo {client : Nat} (converses : Converses connections client) (other : Nat) :
    reaches (hub.sendTo event text connections client).2 other = reaches connections other := by
  unfold reaches
  rw [sendTo_getElem?]
  split
  · rename_i same
    subst same
    obtain ⟨connection, known, converses⟩ := converses
    simp only [known, Option.map_some, Option.any_some,
      Session.Connection.isReachable_hear converses]
  · rfl

theorem converses_sendTo (client : Nat) {other : Nat} (converses : Converses connections other) :
    Converses (hub.sendTo event text connections client).2 other := by
  obtain ⟨connection, known, details, described, dialect⟩ := converses
  refine ⟨if client = other then connection.hear text else connection, ?_, details, ?_, dialect⟩
  · rw [sendTo_getElem?, known]
    split <;> rfl
  · split
    · rwa [Session.Connection.details_hear]
    · exact described

/-- A broadcast changes nothing in the hub but its counters. -/
theorem kept_broadcast (event : FeedEvent) (text : String) (hub : Hub)
    (connections : List Session.Connection) (targets : List Nat) :
    (hub.broadcast event text connections targets).1.network = hub.network ∧
      (hub.broadcast event text connections targets).1.registry = hub.registry := by
  unfold broadcast
  induction targets generalizing hub connections with
  | nil => exact ⟨rfl, rfl⟩
  | cons target rest inductionHypothesis =>
    have first : (hub.sendTo event text connections target).1.network = hub.network ∧
        (hub.sendTo event text connections target).1.registry = hub.registry := by
      unfold sendTo
      split
      · exact ⟨rfl, rfl⟩
      · split <;> exact ⟨rfl, rfl⟩
    obtain ⟨network, registry⟩ := inductionHypothesis
      (hub.sendTo event text connections target).1 (hub.sendTo event text connections target).2
    exact ⟨network.trans first.1, registry.trans first.2⟩

/-- The counters of a broadcast grow by the targets that are reached and by those that are not. -/
theorem get_tally_broadcast (event : FeedEvent) (text : String) (hub : Hub)
    (connections : List Session.Connection) (targets : List Nat)
    (converses : ∀ target ∈ targets, Converses connections target) (sample : Sample) :
    (hub.broadcast event text connections targets).1.tally.get sample = hub.tally.get sample +
      (if sample = .broadcasts event then (targets.countP (reaches connections) : Int) else 0) +
      (if sample = .broadcastFailures event then
        (targets.countP (!reaches connections ·) : Int) else 0) := by
  unfold broadcast
  induction targets generalizing hub connections with
  | nil => simp
  | cons target rest inductionHypothesis =>
    have first := converses target List.mem_cons_self
    have later := inductionHypothesis (hub.sendTo event text connections target).1
      (hub.sendTo event text connections target).2
      fun other mem => converses_sendTo target (converses other (List.mem_cons_of_mem _ mem))
    -- A send reaches nobody else, and whom it closes had been out of reach before.
    have same : reaches (hub.sendTo event text connections target).2 = reaches connections :=
      funext fun other => reaches_sendTo first other
    have sent : (hub.sendTo event text connections target).1 =
        hub.count (if reaches connections target then .broadcasts event
          else .broadcastFailures event) 1 := fst_sendTo first
    refine later.trans ?_
    rw [same, sent, count, Tally.get_add, List.countP_cons, List.countP_cons]
    cases reaches connections target with
    | true =>
      by_cases counted : sample = .broadcasts event
      · subst counted
        simp
        omega
      · simp [counted]
    | false =>
      by_cases counted : sample = .broadcastFailures event
      · subst counted
        simp
        omega
      · simp [counted]

/-- How often an announcement of a block goes to a client. -/
def blockDemand (hub : Hub) (client : Nat) : Nat :=
  if .block ∈ hub.registry.held client then 1 else 0

/-- How often an announcement of a transaction goes to a client: once for every output that one of
its subscriptions matches, and once if it asked for all transactions. -/
def transactionDemand (hub : Hub) (transaction : Ledger.Transaction) (client : Nat) : Nat :=
  (transaction.outputs.countP fun output => (outputQuery? hub.network output).any fun query =>
    (hub.registry.held client).any (·.agrees query)) +
  if .transaction ∈ hub.registry.held client then 1 else 0

/-- Subscriptions to blocks and to all transactions are found by their like alone. -/
theorem any_agrees_iff_mem {query : Subscription} (whole : query = .block ∨ query = .transaction)
    (subscriptions : List Subscription) :
    subscriptions.any (·.agrees query) = true ↔ query ∈ subscriptions := by
  have alone (subscription : Subscription) (same : subscription.agrees query = true) :
      subscription = query := by
    rcases whole with rfl | rfl
    · cases subscription with
      | block => rfl
      | _ => cases same
    · cases subscription with
      | transaction => rfl
      | _ => cases same
  rw [List.any_eq_true]
  constructor
  · rintro ⟨subscription, mem, same⟩
    exact alone subscription same ▸ mem
  · rcases whole with rfl | rfl <;> exact fun mem => ⟨_, mem, rfl⟩

theorem count_blockTargets (distinct : hub.registry.clients.Nodup) (client : Nat) :
    hub.blockTargets.count client = hub.blockDemand client := by
  rw [blockTargets, Registry.count_matching distinct, blockDemand]
  simp only [any_agrees_iff_mem (.inl rfl)]

theorem count_transactionTargets (distinct : hub.registry.clients.Nodup)
    (transaction : Ledger.Transaction) (client : Nat) :
    (hub.transactionTargets transaction).count client =
      hub.transactionDemand transaction client := by
  rw [transactionTargets, transactionDemand, List.count_append, Registry.count_matching distinct]
  simp only [any_agrees_iff_mem (.inr rfl)]
  congr 1
  induction transaction.outputs with
  | nil => rfl
  | cons output rest inductionHypothesis =>
    rw [List.flatMap_cons, List.count_append, inductionHypothesis, List.countP_cons, Nat.add_comm]
    congr 1
    cases outputQuery? hub.network output with
    | none => rfl
    | some query => exact Registry.count_matching distinct client query

/-- Targets among distinct clients are counted client by client. -/
theorem countP_eq_sum_count {clients targets : List Nat} (distinct : clients.Nodup)
    (inside : ∀ target ∈ targets, target ∈ clients) (wanted : Nat → Bool) :
    targets.countP wanted = ((clients.filter wanted).map targets.count).sum := by
  induction targets with
  | nil => simp
  | cons target rest inductionHypothesis =>
    -- The target adds one to the count of one client.
    have alone : ((clients.filter wanted).map fun client =>
        if target == client then 1 else 0).sum = if wanted target = true then 1 else 0 := by
      rw [List.sum_map_eq_nsmul_single target _ fun other differs _ => by simp [Ne.symm differs]]
      by_cases named : wanted target = true
      · rw [List.count_filter named, List.count_eq_one_of_mem distinct
          (inside target List.mem_cons_self)]
        simp [named]
      · have absent : (clients.filter wanted).count target = 0 :=
          List.count_eq_zero.mpr fun mem => named (List.mem_filter.mp mem).2
        simp [named, absent]
    have later := inductionHypothesis fun other mem => inside other (List.mem_cons_of_mem _ mem)
    simp only [List.countP_cons, List.count_cons, List.sum_map_add, later, alone]

/-- Every client is tracked once, and its connection is in a dialect that has messages. -/
structure Coherent (hub : Hub) (connections : List Session.Connection) : Prop where
  distinct : hub.registry.clients.Nodup
  converses : ∀ client ∈ hub.registry.clients, Converses connections client

/-- Every text has a frame for a client that is tracked. -/
theorem Coherent.exists_frame? (coherent : hub.Coherent connections) {client : Nat}
    (registered : client ∈ hub.registry.clients) {connection : Session.Connection}
    (known : connections[client]? = some connection) (text : String) :
    ∃ frame, connection.frame? .text (Utf8.encode text) = some frame := by
  obtain ⟨found, same, speaks⟩ := coherent.converses client registered
  obtain rfl := Option.some.inj (known.symm.trans same)
  exact speaks.exists_frame? text

/-- What comes of an announcement that is to go to each client some number of times. The clients
that are reached get it as often, all of them the same text, and are otherwise left as they are. No
other connection gets data, and those that were to get some are not open any more. -/
structure Announced (event : FeedEvent) (text : String) (demand : Nat → Nat) (hub : Hub)
    (connections : List Session.Connection) (after : Hub × List Session.Connection) : Prop where
  reached : ∀ {client connection}, client ∈ hub.registry.clients →
    connections[client]? = some connection → connection.isReachable = true →
      ∃ frame, connection.frame? .text (Utf8.encode text) = some frame ∧
        after.2[client]? = some (connection.queueing (List.replicate (demand client) frame))
  missed : ∀ {client connection}, connections[client]? = some connection →
    client ∉ hub.registry.clients ∨ connection.isReachable = false →
      ∃ later, after.2[client]? = some later ∧ later.messages = connection.messages ∧
        (client ∉ hub.registry.clients ∨ demand client = 0 → later = connection) ∧
        (client ∈ hub.registry.clients ∧ 0 < demand client → later.state ≠ .opened)
  length : after.2.length = connections.length
  network : after.1.network = hub.network
  registry : after.1.registry = hub.registry
  broadcasts : after.1.tally.get (.broadcasts event) = hub.tally.get (.broadcasts event) +
    (((hub.registry.clients.filter (reaches connections)).map demand).sum : Nat)
  failures : after.1.tally.get (.broadcastFailures event) =
    hub.tally.get (.broadcastFailures event) +
      (((hub.registry.clients.filter (!reaches connections ·)).map demand).sum : Nat)
  samples : ∀ sample, sample ≠ .broadcasts event → sample ≠ .broadcastFailures event →
    after.1.tally.get sample = hub.tally.get sample

/-- A broadcast announces a text to the clients among its targets. -/
theorem announced_broadcast (coherent : hub.Coherent connections) (event : FeedEvent)
    (text : String) {targets : List Nat}
    (inside : ∀ target ∈ targets, target ∈ hub.registry.clients) :
    Announced event text targets.count hub connections
      (hub.broadcast event text connections targets) := by
  have converses : ∀ target ∈ targets, Converses connections target :=
    fun target mem => coherent.converses target (inside target mem)
  obtain ⟨network, registry⟩ := kept_broadcast event text hub connections targets
  have counters := get_tally_broadcast event text hub connections targets converses
  refine ⟨?_, ?_, length_broadcast hub connections targets, network, registry, ?_, ?_, ?_⟩
  · intro client connection registered known reachable
    obtain ⟨frame, framed⟩ := coherent.exists_frame? registered known text
    refine ⟨frame, framed, ?_⟩
    rw [broadcast_getElem?, known, Option.map_some,
      Session.Connection.iterate_hear_of_reachable reachable framed]
  · intro client connection known other
    have heard := broadcast_getElem? event text hub connections targets client
    rw [known, Option.map_some] at heard
    refine ⟨_, heard, ?_⟩
    by_cases registered : client ∈ hub.registry.clients
    · have unreachable := other.resolve_left (not_not_intro registered)
      obtain ⟨frame, framed⟩ := coherent.exists_frame? registered known text
      refine ⟨Session.Connection.messages_iterate_hear unreachable framed _, ?_, ?_⟩
      · rintro (untracked | never)
        · exact absurd registered untracked
        · rw [never]
          rfl
      · exact fun wanted => Session.Connection.state_iterate_hear unreachable framed wanted.2
    · have never : targets.count client = 0 :=
        List.count_eq_zero.mpr fun mem => registered (inside client mem)
      rw [never]
      exact ⟨rfl, fun _ => rfl, fun named => absurd named.1 registered⟩
  · simp [counters, countP_eq_sum_count coherent.distinct inside]
  · simp [counters, countP_eq_sum_count coherent.distinct inside]
  · intro sample sent failed
    simp [counters, sent, failed]

/-- One text announces a transaction or a block. It goes to every client that is reached as often as
its subscriptions ask for it, and to nobody else. Whoever asked for it and is not reached is closed.
The registry stays as it is, and the counters of the event grow by what was sent and by what
failed. -/
theorem announced_to_subscribers (coherent : hub.Coherent connections) :
    (∀ transaction, ∃ text, AnnouncesTransaction hub.network transaction text ∧
      Announced .transaction text (hub.transactionDemand transaction) hub connections
        (hub.announceTransaction connections transaction)) ∧
    ∀ block, ∃ text, AnnouncesBlock block text ∧
      Announced .block text hub.blockDemand hub connections
        (hub.announceBlock connections block) := by
  refine ⟨fun transaction => ⟨_, announcesTransaction_ofTransaction hub.network transaction, ?_⟩,
    fun block => ⟨_, announcesBlock_ofBlock block, ?_⟩⟩
  · have demand : (hub.transactionTargets transaction).count = hub.transactionDemand transaction :=
      funext (count_transactionTargets coherent.distinct transaction)
    rw [← demand]
    exact announced_broadcast coherent _ _ fun target mem => mem_clients_of_transactionTargets mem
  · have demand : hub.blockTargets.count = hub.blockDemand :=
      funext (count_blockTargets coherent.distinct)
    rw [← demand]
    exact announced_broadcast coherent _ _ fun target mem => Registry.mem_clients_of_matching mem

/-- A client that asked for two leads and for all transactions, one that is gone, and one that
watches blocks. -/
def audience : Hub :=
  ⟨"bitcoincash",
    ⟨[⟨2, [.block]⟩, ⟨0, [.data ⟨[1], by decide⟩, .data ⟨[1, 2], by decide⟩, .transaction]⟩,
      ⟨1, [.transaction]⟩]⟩,
    .empty⟩

/-- The connections of the audience. -/
def seats : List Session.Connection :=
  [.opened .hybi13, (Session.Connection.opened .draft76).detach, .opened .draft76]

/-- A transaction with two data outputs that the first client asked for, the second of them by one
of its leads only, and one output that nobody can ask for. -/
def gift : Ledger.Transaction :=
  ⟨[], 1, [],
    [.locking 0 [0x6a, 2, 1, 2], .locking 5 [0x51], .locking 0 [0x6a, 3, 1, 7, 9]], 0⟩

theorem announced_to_audience :
    audience.Coherent seats ∧ audience.transactionDemand gift 0 = 3 ∧
      (∀ transaction, ∃ text, AnnouncesTransaction audience.network transaction text ∧
        Announced .transaction text (audience.transactionDemand transaction) audience seats
          (audience.announceTransaction seats transaction)) ∧
      ∀ block, ∃ text, AnnouncesBlock block text ∧
        Announced .block text audience.blockDemand audience seats
          (audience.announceBlock seats block) := by
  have coherent : audience.Coherent seats := by
    refine ⟨by decide, fun client mem => ?_⟩
    obtain rfl | rfl | rfl : client = 2 ∨ client = 0 ∨ client = 1 := by
      simpa [audience, Registry.clients] using mem
    · exact ⟨_, rfl, _, rfl, .inr rfl⟩
    · exact ⟨_, rfl, _, rfl, .inl rfl⟩
    · exact ⟨_, rfl, _, rfl, .inr rfl⟩
  exact ⟨coherent, by decide +kernel, announced_to_subscribers coherent⟩

end Hub

end CashHerald
