import CashHerald.Proofs.Hub.Isolation
import CashHerald.Proofs.Hub.Requests
import CashHerald.Proofs.Json.RoundTrip

/-!
What comes of a control message. Main statement: a client whose connection is open gets exactly one
reply to every text, the only one that tells truly what became of the client's subscriptions; other
clients notice nothing of it.
-/

namespace CashHerald.Hub

/-- What is said truly in reply to a text: the reply itself, the subscriptions of the client when it
gets it, and the operation that is counted. -/
inductive Truthful (network text : String) (held : List Subscription) :
    Json.Value → List Subscription → String → Prop
  | refused {error : CommandError} (refused : Refused network text error) :
    Truthful network text held
      (.object [("op", .text "error"), ("error", .text error.message)]) held "error"
  | subscribed {name : String} {subscription : Subscription}
      (asked : Requests network text name .subscribe subscription) :
    Truthful network text held (.object [("op", .text name), ("result", .text "ok")])
      (held ++ [subscription]) name
  | unsubscribed {name : String} {subscription removed : Subscription}
      {earlier later : List Subscription}
      (asked : Requests network text name .unsubscribe subscription)
      (split : held = earlier ++ removed :: later)
      (others : ∀ other ∈ earlier, other.agrees subscription = false)
      (agrees : removed.agrees subscription = true) :
    Truthful network text held (.object [("op", .text name), ("result", .text "ok")])
      (earlier ++ later) name
  | missed {name : String} {subscription : Subscription}
      (asked : Requests network text name .unsubscribe subscription)
      (others : ∀ other ∈ held, other.agrees subscription = false) :
    Truthful network text held (.object [("op", .text name), ("result", .text "failed")]) held name

namespace Truthful

variable {network text : String} {held : List Subscription} {value : Json.Value}
  {later : List Subscription} {counted : String}

theorem of_refused (truthful : Truthful network text held value later counted)
    {error : CommandError} (refused : Refused network text error) :
    value = .object [("op", .text "error"), ("error", .text error.message)] ∧
      later = held ∧ counted = "error" := by
  cases truthful with
  | refused other =>
    obtain rfl := refused.unique other
    exact ⟨rfl, rfl, rfl⟩
  | subscribed asked => exact absurd refused (asked.not_refused error)
  | unsubscribed asked => exact absurd refused (asked.not_refused error)
  | missed asked => exact absurd refused (asked.not_refused error)

theorem of_subscribe (truthful : Truthful network text held value later counted)
    {name : String} {subscription : Subscription}
    (asked : Requests network text name .subscribe subscription) :
    value = .object [("op", .text name), ("result", .text "ok")] ∧
      later = held ++ [subscription] ∧ counted = name := by
  cases truthful with
  | refused refused => exact absurd refused (asked.not_refused _)
  | subscribed other =>
    obtain ⟨rfl, -, rfl⟩ := asked.unique other
    exact ⟨rfl, rfl, rfl⟩
  | unsubscribed other => cases (asked.unique other).2.1
  | missed other => cases (asked.unique other).2.1

theorem of_unsubscribe (truthful : Truthful network text held value later counted)
    {name : String} {subscription : Subscription}
    (asked : Requests network text name .unsubscribe subscription) :
    value = .object [("op", .text name), ("result", .text
        (if held.any (·.agrees subscription) then "ok" else "failed"))] ∧
      later = held.eraseP (·.agrees subscription) ∧ counted = name := by
  cases truthful with
  | refused refused => exact absurd refused (asked.not_refused _)
  | subscribed other => cases (asked.unique other).2.1
  | @unsubscribed name otherSubscription removed earlier behind other split others agrees =>
    obtain ⟨rfl, -, rfl⟩ := asked.unique other
    subst split
    have found : (earlier ++ removed :: behind).any (·.agrees subscription) = true :=
      List.any_eq_true.mpr ⟨removed, by simp, agrees⟩
    have passed : ∀ other ∈ earlier, ¬ other.agrees subscription = true :=
      fun other mem => by simp [others other mem]
    rw [if_pos found, List.eraseP_append_right _ passed, List.eraseP_cons, agrees, cond_true]
    exact ⟨rfl, rfl, rfl⟩
  | missed other others =>
    obtain ⟨rfl, -, rfl⟩ := asked.unique other
    have passed : ∀ other ∈ held, ¬ other.agrees subscription = true :=
      fun other mem => by simp [others other mem]
    have missing : ¬ held.any (·.agrees subscription) = true := by
      simpa using others
    rw [if_neg missing, List.eraseP_of_forall_not passed]
    exact ⟨rfl, rfl, rfl⟩

/-- Only one thing can be said truly in reply to a text. -/
theorem unique {otherValue : Json.Value} {otherLater : List Subscription} {otherCounted : String}
    (truthful : Truthful network text held value later counted)
    (other : Truthful network text held otherValue otherLater otherCounted) :
    otherValue = value ∧ otherLater = later ∧ otherCounted = counted := by
  rcases requests_or_refused network text with
    ⟨name, action, subscription, asked⟩ | ⟨error, refused⟩
  · cases action with
    | subscribe =>
      obtain ⟨rfl, rfl, rfl⟩ := truthful.of_subscribe asked
      exact other.of_subscribe asked
    | unsubscribe =>
      obtain ⟨rfl, rfl, rfl⟩ := truthful.of_unsubscribe asked
      exact other.of_unsubscribe asked
  · obtain ⟨rfl, rfl, rfl⟩ := truthful.of_refused refused
    exact other.of_refused refused

/-- Every reply that is true is read as what it says. -/
theorem parse_render (truthful : Truthful network text held value later counted) :
    Json.parse (Json.Writer.render value) = .ok value := by
  have plain (name first second : String) : Json.Plain Json.Parser.depthLimit
      (.object [("op", .text first), (name, .text second)]) := by
    refine .object ?_ ?_
    · rintro member ⟨⟩
      exact (by decide : "op" ≠ Json.Parser.enclosingName)
    · simp only [List.forall_mem_cons]
      exact ⟨.text _, .text _, List.forall_mem_nil _⟩
  cases truthful <;> exact Json.parse_render (plain _ _ _)

end Truthful

/-- What a request comes to is told truly. -/
theorem truthful_execute {hub : Hub} {client : Nat} {held : List Subscription}
    (tracked : hub.registry.subscriptions? client = some held) {text name : String}
    {action : Action} {topic : Topic} {subscription : Subscription}
    (asked : Requests hub.network text name action subscription)
    (named : Operation.name ⟨action, topic⟩ = name) :
    ∃ later, Truthful hub.network text held
        (hub.execute client ⟨⟨action, topic⟩, subscription⟩).2.value later name ∧
      (hub.execute client ⟨⟨action, topic⟩, subscription⟩).1.registry.subscriptions? client =
        some later := by
  subst named
  cases action with
  | subscribe =>
    exact ⟨_, .subscribed asked, by
      rw [execute, subscriptions?_subscribe, tracked, Option.map_some]⟩
  | unsubscribe =>
    obtain ⟨left, told⟩ := hub.unsubscribe_eq client subscription
    have holding : hub.registry.held client = held := by
      simp only [Registry.held, tracked, Option.getD_some]
    rw [tracked] at left
    rw [holding] at told
    rw [execute_of_unsubscribe hub client rfl, told]
    refine ⟨_, ?_, left⟩
    by_cases found : held.any (·.agrees subscription) = true
    · obtain ⟨other, mem, agrees⟩ := List.any_eq_true.mp found
      obtain ⟨removed, earlier, later, others, agrees, split, same⟩ :=
        List.exists_of_eraseP (p := (·.agrees subscription)) mem agrees
      rw [if_pos found, same]
      exact .unsubscribed asked split
        (fun other mem => Bool.eq_false_of_not_eq_true (others other mem)) agrees
    · have missed : ∀ other ∈ held, ¬ other.agrees subscription = true :=
        fun other mem agrees => found (List.any_eq_true.mpr ⟨other, mem, agrees⟩)
      rw [if_neg found, List.eraseP_of_forall_not missed]
      exact .missed asked fun other mem => Bool.eq_false_of_not_eq_true (missed other mem)

/-- A command is not counted again when it is carried out. -/
theorem get_controlMessages_execute (hub : Hub) (client : Nat) (command : Command)
    (name : String) :
    (hub.execute client command).1.tally.get (.controlMessages name) =
      hub.tally.get (.controlMessages name) := by
  have recounted (registry : Registry) (topic : Topic) (amount : Int) :
      ((hub.withRegistry registry).count (.subscriptions topic) amount).tally.get
          (.controlMessages name) =
        hub.tally.get (.controlMessages name) := by
    simp [count, withRegistry, Tally.get_add]
  cases action : command.operation.action with
  | subscribe =>
    unfold execute subscribe
    rw [action]
    dsimp only
    split
    · exact recounted _ _ _
    · rfl
  | unsubscribe =>
    rw [execute_of_unsubscribe hub client action]
    unfold unsubscribe
    dsimp only
    split
    · rfl
    · exact recounted _ _ _

/-- A control message is counted under one operation, and the reply to it is true. -/
theorem truthful_answer {hub : Hub} {client : Nat} {held : List Subscription}
    (tracked : hub.registry.subscriptions? client = some held) (text : String) :
    ∃ later counted,
      Truthful hub.network text held (hub.answer client text).2.value later counted ∧
      (hub.answer client text).1.registry.subscriptions? client = some later ∧
      ∀ name, (hub.answer client text).1.tally.get (.controlMessages name) =
        hub.tally.get (.controlMessages name) + if name = counted then 1 else 0 := by
  have counting (counted name : String) :
      (hub.count (.controlMessages counted) 1).tally.get (.controlMessages name) =
        hub.tally.get (.controlMessages name) + if name = counted then 1 else 0 := by
    simp only [count, Tally.get_add, Sample.controlMessages.injEq]
  rcases requests_or_refused hub.network text with
    ⟨name, action, subscription, asked⟩ | ⟨error, refused⟩
  · obtain ⟨topic, read, named⟩ := ofText_of_requests asked
    have answered : hub.answer client text =
        (hub.count (.controlMessages name) 1).execute client
          ⟨⟨action, topic⟩, subscription⟩ := by
      simp only [answer, read, named]
    have counted : (hub.count (.controlMessages name) 1).registry.subscriptions? client =
        some held := tracked
    obtain ⟨later, truthful, left⟩ := truthful_execute counted asked named
    rw [answered]
    refine ⟨later, name, truthful, left, fun other => ?_⟩
    rw [get_controlMessages_execute, counting]
  · have answered : hub.answer client text =
        (hub.count (.controlMessages "error") 1, .refused error) := by
      simp only [answer, ofText_of_refused refused]
    rw [answered]
    exact ⟨held, "error", .refused refused, tracked, counting "error"⟩

namespace World

variable {Name : Type} {world : World Name} {client : Nat} {connection : Session.Connection}

/-- The reply to a text is the only thing that is queued. -/
theorem tell_text_of_reachable (known : world.connections[client]? = some connection)
    (reachable : connection.isReachable = true) {text : String} {frame : Octets}
    (framed : connection.frame? .text (Utf8.encode (world.relay.hub.answer client text).2.text) =
      some frame) :
    world.tell client (.text text) =
      ⟨world.relay.withHub (world.relay.hub.answer client text).1, world.names,
        world.connections.set client (connection.queueing [frame])⟩ := by
  have sent : (Hub.handler world.relay.hub client (.text text)).run connection =
      ((connection.sendText (world.relay.hub.answer client text).2.text).1,
        (world.relay.hub.answer client text).1) := rfl
  rw [tell_of_known known, sent, Session.Connection.sendText_of_reachable reachable framed]

/-- What a reply to a client changes: one frame with the reply, which is read as what it says, is
queued on the client's connection, the client has the subscriptions that the reply speaks of, and
one operation is counted. -/
structure Replied (client : Nat) (connection : Session.Connection) (value : Json.Value)
    (later : List Subscription) (counted : String) (before after : World Name) : Prop where
  queued : ∃ frame,
    connection.frame? .text (Utf8.encode (Json.Writer.render value)) = some frame ∧
      after.connections = before.connections.set client (connection.queueing [frame])
  readable : Json.parse (Json.Writer.render value) = .ok value
  own : after.relay.hub.registry.subscriptions? client = some later
  others : ∀ other, other ≠ client → after.relay.hub.registry.subscriptions? other =
    before.relay.hub.registry.subscriptions? other
  counts : ∀ name, after.relay.hub.tally.get (.controlMessages name) =
    before.relay.hub.tally.get (.controlMessages name) + if name = counted then 1 else 0
  network : after.relay.hub.network = before.relay.hub.network
  names : after.names = before.names
  blocks : after.relay.blocks = before.relay.blocks
  transactions : after.relay.transactions = before.relay.transactions

theorem replied_tell_text {held : List Subscription}
    (tracked : world.relay.hub.registry.subscriptions? client = some held)
    (known : world.connections[client]? = some connection)
    (reachable : connection.isReachable = true) (converses : connection.Converses)
    (text : String) :
    ∃ value later counted, Truthful world.relay.hub.network text held value later counted ∧
      Replied client connection value later counted world (world.tell client (.text text)) := by
  obtain ⟨later, counted, truthful, left, counts⟩ := truthful_answer tracked text
  obtain ⟨frame, framed⟩ :=
    converses.exists_frame? (world.relay.hub.answer client text).2.text
  have confined := world.relay.hub.confined_answer client text
  refine ⟨(world.relay.hub.answer client text).2.value, later, counted, truthful, ?_⟩
  rw [tell_text_of_reachable known reachable framed]
  exact ⟨⟨frame, framed, rfl⟩, truthful.parse_render, left,
    fun _ differs => confined.registry.others differs, counts, confined.network, rfl, rfl, rfl⟩

/-- Texts of a client with a reply to each, every one of them true when it is given. -/
inductive Dialogue (network : String) :
    List Subscription → List String → List Json.Value → List Subscription → Prop
  | silence {held : List Subscription} : Dialogue network held [] [] held
  | exchange {held between later : List Subscription} {text : String} {texts : List String}
      {value : Json.Value} {values : List Json.Value} {counted : String}
      (truthful : Truthful network text held value between counted)
      (rest : Dialogue network between texts values later) :
      Dialogue network held (text :: texts) (value :: values) later

/-- A client whose connection is open gets a true reply to each of its texts, in their order. -/
theorem exists_dialogue {held : List Subscription}
    (tracked : world.relay.hub.registry.subscriptions? client = some held)
    (known : world.connections[client]? = some connection)
    (reachable : connection.isReachable = true) (converses : connection.Converses)
    (texts : List String) :
    ∃ values later frames, Dialogue world.relay.hub.network held texts values later ∧
      values.map (fun value =>
        connection.frame? .text (Utf8.encode (Json.Writer.render value))) = frames.map some ∧
      (texts.foldl (fun rest text => rest.tell client (.text text)) world).connections =
        world.connections.set client (connection.queueing frames) ∧
      (texts.foldl (fun rest text => rest.tell client (.text text))
        world).relay.hub.registry.subscriptions? client = some later := by
  induction texts generalizing world held connection with
  | nil =>
    obtain ⟨within, rfl⟩ := List.getElem?_eq_some_iff.mp known
    refine ⟨[], held, [], .silence, rfl, ?_, tracked⟩
    have same : world.connections[client].queueing [] = world.connections[client] := by
      simp [Session.Connection.queueing]
    rw [same, List.set_getElem_self]
    rfl
  | cons text texts inductionHypothesis =>
    obtain ⟨value, between, counted, truthful, replied⟩ :=
      replied_tell_text tracked known reachable converses text
    obtain ⟨frame, framed, told⟩ := replied.queued
    have within := (List.getElem?_eq_some_iff.mp known).1
    -- The next text finds the connection as open as before, with the reply in its queue.
    have next : (world.tell client (.text text)).connections[client]? =
        some (connection.queueing [frame]) := by
      rw [told]
      exact List.getElem?_set_self within
    obtain ⟨values, later, frames, dialogue, sent, queued, left⟩ :=
      inductionHypothesis replied.own next reachable converses
    refine ⟨value :: values, later, frame :: frames,
      .exchange truthful (replied.network ▸ dialogue), congrArg₂ List.cons framed sent, ?_, left⟩
    rw [List.foldl_cons, queued, told, List.set_set]
    simp [Session.Connection.queueing]

/-- A client whose connection is open gets exactly one reply to a text, which is the only true one.
So to some texts in a row it gets as many replies in the same order, and nothing else. -/
theorem exists_replied_tell_text {held : List Subscription}
    (tracked : world.relay.hub.registry.subscriptions? client = some held)
    (known : world.connections[client]? = some connection)
    (reachable : connection.isReachable = true) (converses : connection.Converses) :
    (∀ text, ∃ value later counted,
      Truthful world.relay.hub.network text held value later counted ∧
      (∀ other otherLater otherCounted,
        Truthful world.relay.hub.network text held other otherLater otherCounted →
          other = value ∧ otherLater = later ∧ otherCounted = counted) ∧
      Replied client connection value later counted world (world.tell client (.text text))) ∧
    ∀ texts, ∃ values later frames, Dialogue world.relay.hub.network held texts values later ∧
      values.map (fun value =>
        connection.frame? .text (Utf8.encode (Json.Writer.render value))) = frames.map some ∧
      (texts.foldl (fun rest text => rest.tell client (.text text)) world).connections =
        world.connections.set client (connection.queueing frames) ∧
      (texts.foldl (fun rest text => rest.tell client (.text text))
        world).relay.hub.registry.subscriptions? client = some later := by
  refine ⟨fun text => ?_, exists_dialogue tracked known reachable converses⟩
  obtain ⟨value, later, counted, truthful, replied⟩ :=
    replied_tell_text tracked known reachable converses text
  exact ⟨value, later, counted, truthful, fun _ _ _ other => truthful.unique other, replied⟩

/-- A relay with one client, who has asked for nothing yet. -/
def withListener : World String :=
  (World.start "bitcoincash").step (.client "alice" (.opens .hybi13))

/-- The listener asks for blocks and is told so, would give up what it has not asked for and is told
that this fails, and sends what is no request and is told why. -/
theorem replied_withListener :
    withListener.relay.hub.registry.subscriptions? 0 = some [] ∧
      Replied 0 (.opened .hybi13) (.object [("op", .text "block"), ("result", .text "ok")])
        [.block] "block" withListener
        (withListener.tell 0 (.text "\x7b\"op\":\"Block\"\x7d")) ∧
      Replied 0 (.opened .hybi13) (.object [("op", .text "rm_block"), ("result", .text "failed")])
        [] "rm_block" withListener
        (withListener.tell 0 (.text "\x7b\"op\":\"rm_BLOCK\"\x7d")) ∧
      Replied 0 (.opened .hybi13)
        (.object [("op", .text "error"), ("error", .text CommandError.missingOperation.message)])
        [] "error" withListener (withListener.tell 0 (.text "\x7b\x7d")) := by
  have tracked : withListener.relay.hub.registry.subscriptions? 0 = some [] := rfl
  have known : withListener.connections[0]? = some (.opened .hybi13) := rfl
  have converses : (Session.Connection.opened .hybi13).Converses := ⟨_, rfl, .inl rfl⟩
  obtain ⟨replies, -⟩ := exists_replied_tell_text tracked known rfl converses
  have asks (name : String) : Json.parse (Json.Writer.render (.object [("op", .text name)])) =
      .ok (.object [("op", .text name)]) := by
    refine Json.parse_render (.object ?_ ?_)
    · rintro member ⟨⟩
      exact (by decide : "op" ≠ Json.Parser.enclosingName)
    · exact List.forall_mem_singleton.mpr (.text name)
  have gives (name : String) : Gives [("op", .text name)] "op" name :=
    ⟨[], [], rfl, List.forall_mem_nil _⟩
  refine ⟨tracked, ?_, ?_, ?_⟩
  · obtain ⟨value, later, counted, -, unique, replied⟩ :=
      replies "\x7b\"op\":\"Block\"\x7d"
    have asked : Requests "bitcoincash" "\x7b\"op\":\"Block\"\x7d" "block" .subscribe .block :=
      ⟨_, _, .block, asks "Block", gives "Block", by decide, .block, .block⟩
    obtain ⟨rfl, rfl, rfl⟩ := unique _ _ _ (.subscribed asked)
    exact replied
  · obtain ⟨value, later, counted, -, unique, replied⟩ :=
      replies "\x7b\"op\":\"rm_BLOCK\"\x7d"
    have asked : Requests "bitcoincash" "\x7b\"op\":\"rm_BLOCK\"\x7d" "rm_block" .unsubscribe
        .block := ⟨_, _, .block, asks "rm_BLOCK", gives "rm_BLOCK", by decide, .noBlock, .block⟩
    obtain ⟨rfl, rfl, rfl⟩ := unique _ _ _ (.missed asked (List.forall_mem_nil _))
    exact replied
  · obtain ⟨value, later, counted, -, unique, replied⟩ := replies "\x7b\x7d"
    have read : parsed "\x7b\x7d" = .ok (.object []) :=
      Json.parse_render (.object (by rintro member ⟨⟩) (List.forall_mem_nil _))
    have missing (written : String) : ¬ Gives [] "op" written := by
      rintro ⟨earlier, later, same, -⟩
      simp at same
    obtain ⟨rfl, rfl, rfl⟩ := unique _ _ _ (.refused (.missingOperation read missing))
    exact replied

end World

end CashHerald.Hub
