import CashHerald.Proofs.Hub.Confinement

/-!
What the feed has to do with everything else at a relay. The counts of payloads are kept by whatever
clients do and by every broadcast. What a client gets of an announcement depends on the network, on
the registry, and on whether its connection is reached. Main statement: with everything that is
announced, each client gets as many copies of it as the registry asks for, and goes on being reached
or not.
-/

namespace CashHerald

namespace Session.Connection

variable {connection : Connection} {text : String}

/-- What a connection gets when a text is sent on it a number of times. -/
def copies (connection : Connection) (text : String) (times : Nat) : List Octets :=
  match connection.frame? .text (Utf8.encode text) with
  | some frame => if connection.isReachable then List.replicate times frame else []
  | none => []

/-- Two connections that get the same copies of everything. -/
structure SameEars (first second : Connection) : Prop where
  details : second.details = first.details
  reachable : first.Converses → second.isReachable = first.isReachable

theorem SameEars.refl (connection : Connection) : connection.SameEars connection :=
  ⟨rfl, fun _ => rfl⟩

theorem SameEars.trans {first second third : Connection} (front : first.SameEars second)
    (back : second.SameEars third) : first.SameEars third := by
  refine ⟨back.details.trans front.details, fun converses => ?_⟩
  have still : second.Converses := by
    obtain ⟨details, known, dialect⟩ := converses
    exact ⟨details, front.details.trans known, dialect⟩
  exact (back.reachable still).trans (front.reachable converses)

/-- A connection that does not converse has no frame for a text. -/
theorem converses_of_frame? {frame : Octets}
    (framed : connection.frame? .text (Utf8.encode text) = some frame) : connection.Converses := by
  unfold frame? at framed
  split at framed
  · cases framed
  · rename_i details known
    refine ⟨details, known, ?_⟩
    cases dialect : details.dialect with
    | hybi13 => exact .inl rfl
    | draft76 => exact .inr rfl
    | flashPolicy => simp [dialect, Wire.Dialect.encode?] at framed

theorem SameEars.copies {first second : Connection} (same : first.SameEars second) (text : String)
    (times : Nat) : second.copies text times = first.copies text times := by
  have frames : second.frame? .text (Utf8.encode text) = first.frame? .text (Utf8.encode text) := by
    simp only [frame?, same.details]
  unfold Connection.copies
  rw [frames]
  split
  · rename_i frame framed
    rw [same.reachable (converses_of_frame? framed)]
  · rfl

theorem sameEars_hear (text : String) (connection : Connection) :
    connection.SameEars (connection.hear text) :=
  ⟨details_hear text connection, fun converses => isReachable_hear converses text⟩

theorem sameEars_iterate_hear (text : String) (times : Nat) (connection : Connection) :
    connection.SameEars ((hear text)^[times] connection) := by
  induction times with
  | zero => exact .refl connection
  | succ times inductionHypothesis =>
    rw [Function.iterate_succ_apply']
    exact inductionHypothesis.trans (sameEars_hear text _)

theorem messages_hear_of_unframed (unframed : connection.frame? .text (Utf8.encode text) = none) :
    (connection.hear text).messages = connection.messages := by
  unfold hear sendText send
  rcases connection.refusal? .text (Utf8.encode text) with _ | fault
  · simp only [unframed]
  · exact messages_close connection _

theorem messages_queueing (connection : Connection) (frames : List Octets) :
    (connection.queueing frames).messages = connection.messages ++ frames := by
  have all : (frames.map Outbound.data).filterMap Outbound.data? = frames := by
    rw [List.filterMap_map]
    exact List.filterMap_some
  rw [messages, queueing, List.filterMap_append, all, messages]

/-- What is sent on a connection is queued behind what it has got before. -/
theorem messages_iterate_hear_eq (text : String) (times : Nat) (connection : Connection) :
    ((hear text)^[times] connection).messages =
      connection.messages ++ connection.copies text times := by
  unfold copies
  split
  · rename_i frame framed
    split
    · rename_i reachable
      rw [iterate_hear_of_reachable reachable framed, messages_queueing]
    · rename_i unreachable
      rw [messages_iterate_hear (Bool.eq_false_of_not_eq_true unreachable) framed, List.append_nil]
  · rename_i unframed
    rw [List.append_nil]
    induction times with
    | zero => rfl
    | succ times inductionHypothesis =>
      have still : ((hear text)^[times] connection).frame? .text (Utf8.encode text) = none := by
        rw [← unframed]
        simp only [frame?, (sameEars_iterate_hear text times connection).details]
      rw [Function.iterate_succ_apply', messages_hear_of_unframed still, inductionHypothesis]

end Session.Connection

namespace Hub

/-- The samples that count what clients ask for and are told. -/
def Sample.isTraffic : Sample → Bool
  | .subscriptions _ => true
  | .controlMessages _ => true
  | .broadcasts _ => true
  | .broadcastFailures _ => true
  | _ => false

/-- What a count adds to a sample. -/
theorem get_count (hub : Hub) (counted sample : Sample) (amount : Int) :
    (hub.count counted amount).tally.get sample =
      hub.tally.get sample + if sample = counted then amount else 0 :=
  hub.tally.get_add counted sample amount

theorem get_count_other (hub : Hub) {counted sample : Sample} (differs : counted ≠ sample)
    (amount : Int) : (hub.count sample amount).tally.get counted = hub.tally.get counted := by
  simp [get_count, differs]

/-- A change of the hub that leaves all counts but those of the traffic as they are. -/
def TrafficOnly (before after : Hub) : Prop :=
  ∀ sample, sample.isTraffic = false → after.tally.get sample = before.tally.get sample

namespace TrafficOnly

theorem refl (hub : Hub) : TrafficOnly hub hub :=
  fun _ _ => rfl

theorem trans {first second third : Hub} (front : TrafficOnly first second)
    (back : TrafficOnly second third) : TrafficOnly first third :=
  fun sample other => (back sample other).trans (front sample other)

theorem count (hub : Hub) {sample : Sample} (traffic : sample.isTraffic = true) (amount : Int) :
    TrafficOnly hub (hub.count sample amount) := by
  refine fun counted other => get_count_other hub ?_ amount
  rintro rfl
  rw [traffic] at other
  cases other

theorem removeClient (hub : Hub) (client : Nat) : TrafficOnly hub (hub.removeClient client).1 := by
  have fold (subscriptions : List Subscription) (hub : Hub) :
      TrafficOnly hub (subscriptions.foldl
        (fun rest subscription => rest.count (.subscriptions subscription.topic) (-1)) hub) := by
    induction subscriptions generalizing hub with
    | nil => exact .refl hub
    | cons subscription rest inductionHypothesis =>
      exact (count hub rfl (-1)).trans (inductionHypothesis _)
  unfold Hub.removeClient
  split
  · exact .refl hub
  · exact fold _ (hub.withRegistry (hub.registry.untrack client))

theorem subscribe (hub : Hub) (client : Nat) (subscription : Subscription) :
    TrafficOnly hub (hub.subscribe client subscription).1 := by
  unfold Hub.subscribe
  split
  · exact count (hub.withRegistry _) rfl 1
  · exact .refl hub

theorem unsubscribe (hub : Hub) (client : Nat) (query : Subscription) :
    TrafficOnly hub (hub.unsubscribe client query).1 := by
  unfold Hub.unsubscribe
  split
  · exact .refl hub
  · exact count (hub.withRegistry _) rfl (-1)

theorem answer (hub : Hub) (client : Nat) (text : String) :
    TrafficOnly hub (hub.answer client text).1 := by
  unfold Hub.answer
  split
  · exact count hub rfl 1
  · rename_i command read
    have counted : TrafficOnly hub (hub.count (.controlMessages command.operation.name) 1) :=
      count hub rfl 1
    refine counted.trans ?_
    cases action : command.operation.action with
    | subscribe =>
      unfold Hub.execute
      rw [action]
      exact subscribe _ client command.subscription
    | unsubscribe =>
      rw [execute_of_unsubscribe _ client action]
      exact unsubscribe _ client command.subscription

theorem sendTo (event : FeedEvent) (text : String) (hub : Hub)
    (connections : List Session.Connection) (client : Nat) :
    TrafficOnly hub (hub.sendTo event text connections client).1 := by
  unfold Hub.sendTo
  split
  · exact .refl hub
  · split
    · exact count hub rfl 1
    · exact count hub rfl 1

/-- A broadcast counts traffic only. -/
theorem broadcast (event : FeedEvent) (text : String) (hub : Hub)
    (connections : List Session.Connection) (targets : List Nat) :
    TrafficOnly hub (hub.broadcast event text connections targets).1 := by
  unfold Hub.broadcast
  induction targets generalizing hub connections with
  | nil => exact .refl hub
  | cons target rest inductionHypothesis =>
    exact (sendTo event text hub connections target).trans (inductionHypothesis _ _)

end TrafficOnly

/-- The samples that count the payloads of the feed. -/
def Sample.isFeed : Sample → Bool
  | .decoded _ => true
  | .decodeFailures _ => true
  | .queueDepth _ => true
  | _ => false

/-- A change of the hub that leaves the counts of payloads as they are. -/
def FeedKept (before after : Hub) : Prop :=
  ∀ sample, sample.isFeed = true → after.tally.get sample = before.tally.get sample

/-- The traffic has no part in the counts of payloads. -/
theorem TrafficOnly.feedKept {before after : Hub} (traffic : TrafficOnly before after) :
    FeedKept before after := by
  intro sample fed
  refine traffic sample ?_
  cases sample with
  | decoded => rfl
  | decodeFailures => rfl
  | queueDepth => rfl
  | _ => cases fed

namespace FeedKept

theorem refl (hub : Hub) : FeedKept hub hub :=
  fun _ _ => rfl

theorem trans {first second third : Hub} (front : FeedKept first second)
    (back : FeedKept second third) : FeedKept first third :=
  fun sample fed => (back sample fed).trans (front sample fed)

theorem count (hub : Hub) {sample : Sample} (other : sample.isFeed = false) (amount : Int) :
    FeedKept hub (hub.count sample amount) := by
  refine fun counted fed => get_count_other hub ?_ amount
  rintro rfl
  rw [fed] at other
  cases other

/-- What clients do leaves the counts of payloads as they are. -/
theorem handler (hub : Hub) (client : Nat) (event : Session.Event)
    (connection : Session.Connection) :
    FeedKept hub ((Hub.handler hub client event).run connection).2 := by
  cases event with
  | opened => exact count (hub.addClient client) rfl 1
  | text content => exact (TrafficOnly.answer hub client content).feedKept
  | closed =>
    have removed := (TrafficOnly.removeClient hub client).feedKept
    unfold Hub.handler
    rcases left : hub.removeClient client with ⟨later, _ | _⟩ <;> rw [left] at removed
    · exact removed
    · exact removed.trans (count later rfl (-1))
  | _ => exact .refl hub

end FeedKept

/-- What a payload decodes to. -/
inductive Decoded where
  | block (value : Ledger.Block)
  | transaction (value : Ledger.Transaction)
  deriving DecidableEq

namespace Decoded

/-- The value of a payload, if it decodes. -/
def of? (event : FeedEvent) (raw : Octets) : Option Decoded :=
  match event with
  | .block => (Ledger.Block.decode raw).toOption.map .block
  | .transaction => (Ledger.Transaction.decode raw).toOption.map .transaction

def event : Decoded → FeedEvent
  | .block _ => .block
  | .transaction _ => .transaction

/-- What subscribers are told. -/
def text (network : String) : Decoded → String
  | .block value => Json.Writer.render (Announcement.ofBlock value)
  | .transaction value => Json.Writer.render (Announcement.ofTransaction network value)

/-- The subscribers, each as often as it is to be told. -/
def targets (hub : Hub) : Decoded → List Nat
  | .block _ => hub.blockTargets
  | .transaction value => hub.transactionTargets value

/-- Announces a value to its subscribers. -/
def announce (hub : Hub) (connections : List Session.Connection) :
    Decoded → Hub × List Session.Connection
  | .block value => hub.announceBlock connections value
  | .transaction value => hub.announceTransaction connections value

variable {hub : Hub} {connections : List Session.Connection} {decoded : Decoded}

theorem announce_eq (hub : Hub) (connections : List Session.Connection) (decoded : Decoded) :
    decoded.announce hub connections =
      hub.broadcast decoded.event (decoded.text hub.network) connections (decoded.targets hub) := by
  cases decoded <;> rfl

theorem event_of? {event : FeedEvent} {raw : Octets} (found : of? event raw = some decoded) :
    decoded.event = event := by
  cases event <;> obtain ⟨value, -, rfl⟩ := Option.map_eq_some_iff.mp found <;> rfl

/-- The subscribers depend on the network and on the registry. -/
theorem targets_congr {first second : Hub} (network : first.network = second.network)
    (registry : first.registry = second.registry) (decoded : Decoded) :
    decoded.targets first = decoded.targets second := by
  cases decoded with
  | block value => simp only [targets, blockTargets, registry]
  | transaction value => simp only [targets, transactionTargets, network, registry]

/-- What a client gets of an announcement. -/
def copies (hub : Hub) (client : Nat) (connection : Session.Connection) (decoded : Decoded) :
    List Octets :=
  connection.copies (decoded.text hub.network) ((decoded.targets hub).count client)

/-- An announcement changes nothing in the hub but the counts of what was sent. -/
theorem kept_announce (hub : Hub) (connections : List Session.Connection) (decoded : Decoded) :
    (decoded.announce hub connections).1.network = hub.network ∧
      (decoded.announce hub connections).1.registry = hub.registry ∧
      FeedKept hub (decoded.announce hub connections).1 := by
  rw [announce_eq]
  obtain ⟨network, registry⟩ := kept_broadcast decoded.event (decoded.text hub.network) hub
    connections (decoded.targets hub)
  exact ⟨network, registry, (TrafficOnly.broadcast _ _ _ _ _).feedKept⟩

/-- A client gets its copies of an announcement behind what it has got before. -/
theorem announce_getElem? (hub : Hub) (decoded : Decoded) {client : Nat}
    {connection : Session.Connection} (known : connections[client]? = some connection) :
    ∃ later, (decoded.announce hub connections).2[client]? = some later ∧
      connection.SameEars later ∧
      later.messages = connection.messages ++ decoded.copies hub client connection := by
  refine ⟨_, ?_, connection.sameEars_iterate_hear _ _, connection.messages_iterate_hear_eq _ _⟩
  rw [announce_eq, broadcast_getElem?, known, Option.map_some]

end Decoded

end Hub

end CashHerald
