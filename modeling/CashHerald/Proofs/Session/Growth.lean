import CashHerald.Proofs.Session.Undisturbed

/-!
What a run never takes back. Main statement: with every turn but a failing write, the events told
stay told, the details of the connection stay as they are, and what is written or queued only gets
longer.
-/

namespace CashHerald.Session

namespace Account

variable {journal : List Note} {connection : Connection} {done : Octets}

theorem output_enqueue_prefix (account : Account journal connection done) (item : Outbound) :
    connection.output done <+: (connection.enqueue item).output done := by
  rw [account.output_enqueue]
  exact List.prefix_append _ _

theorem output_eq_nil_of_fresh (account : Account journal .fresh done) :
    Connection.fresh.output done = [] := by
  rw [(account.eq_fresh_of_connecting rfl).2]
  rfl

theorem output_send_prefix (account : Account journal connection done) (opcode : Wire.Opcode)
    (payload : Octets) :
    connection.output done <+: (connection.send opcode payload).1.output done := by
  unfold Connection.send
  split
  · exact List.prefix_rfl
  · split
    · exact List.prefix_rfl
    · exact account.output_enqueue_prefix _

/-- A call takes back nothing that is written or queued. -/
theorem output_perform_prefix (account : Account journal connection done) {call : Call}
    (allowed : call.Allowed connection) :
    connection.output done <+: (connection.perform call).1.output done := by
  cases call with
  | servePolicy =>
    obtain rfl : connection = .fresh := allowed
    rw [account.output_eq_nil_of_fresh]
    exact List.nil_prefix
  | complete details response =>
    obtain rfl : connection = .fresh := allowed.1
    rw [account.output_eq_nil_of_fresh]
    exact List.nil_prefix
  | close code =>
    simp only [Connection.perform, Connection.close]
    split
    · rw [Connection.enqueue_withState]
      exact account.output_enqueue_prefix _
    · exact List.prefix_rfl
  | finish => exact account.output_enqueue_prefix _

end Account

/-- A call leaves the details of a connection that has some. -/
theorem Connection.details_perform {connection : Connection} {details : Details}
    (known : connection.details = some details) (call : Call) :
    (connection.perform call).1.details = some details := by
  cases call with
  | servePolicy => simp [perform, servePolicy, describe, known]
  | complete other response => simp [perform, complete, known]
  | close code => rw [← known]; exact details_close connection code
  | finish => rw [← known]; exact details_finish connection

namespace Moment

variable {Memory : Type}

theorem written_follow (handler : Handler Memory) (client : Nat) (moment : Moment Memory)
    (move : Move) : (moment.follow handler client move).written = moment.written := by
  obtain ⟨call, event, left⟩ := move
  cases event <;> rfl

/-- A later moment of a run takes nothing back: no event, no details, and nothing that is written or
queued. -/
structure GrowsInto (earlier later : Moment Memory) : Prop where
  callbacks : earlier.callbacks <+: later.callbacks
  details : ∀ details, earlier.connection.details = some details →
    later.connection.details = some details
  output : earlier.connection.output earlier.written <+: later.connection.output later.written

namespace GrowsInto

variable {first second third : Moment Memory}

theorem refl (moment : Moment Memory) : moment.GrowsInto moment :=
  ⟨List.prefix_rfl, fun _ known => known, List.prefix_rfl⟩

theorem trans (front : first.GrowsInto second) (back : second.GrowsInto third) :
    first.GrowsInto third :=
  ⟨front.callbacks.trans back.callbacks,
    fun details known => back.details details (front.details details known),
    front.output.trans back.output⟩

end GrowsInto

section Growing

variable {moment : Moment Memory}

/-- What the session turns to and what the handler remembers take nothing back. -/
theorem growsInto_of_notes (moment : Moment Memory) (memory : Memory) (activity : Activity Memory)
    (notes : List Note) :
    moment.GrowsInto
      ⟨moment.connection, memory, activity, moment.written, moment.journal ++ notes⟩ where
  callbacks := by
    simp only [callbacks, List.filterMap_append]
    exact List.prefix_append _ _
  details := fun _ known => known
  output := List.prefix_rfl

theorem growsInto_turnTo (moment : Moment Memory) (activity : Activity Memory) :
    moment.GrowsInto (moment.turnTo activity) := by
  have grows := growsInto_of_notes moment moment.memory activity []
  rwa [List.append_nil] at grows

theorem growsInto_remember (moment : Moment Memory) (memory : Memory)
    (activity : Activity Memory) :
    moment.GrowsInto
      ⟨moment.connection, memory, activity, moment.written, moment.journal⟩ := by
  have grows := growsInto_of_notes moment memory activity []
  rwa [List.append_nil] at grows

theorem growsInto_send (account : Account moment.journal moment.connection moment.written)
    (opcode : Wire.Opcode) (payload : Octets) : moment.GrowsInto (moment.send opcode payload) where
  callbacks := (growsInto_of_notes moment moment.memory moment.activity _).callbacks
  details := fun _ known => (Connection.details_send _ _ _).trans known
  output := account.output_send_prefix opcode payload

theorem growsInto_call (account : Account moment.journal moment.connection moment.written)
    {call : Call} (allowed : call.Allowed moment.connection) :
    moment.GrowsInto (moment.call call) where
  callbacks := (growsInto_of_notes moment moment.memory moment.activity _).callbacks
  details := fun _ known => Connection.details_perform known call
  output := account.output_perform_prefix allowed

theorem growsInto_follow (moment : Moment Memory)
    (account : Account moment.journal moment.connection moment.written) {move : Move}
    (allowed : ∀ call ∈ move.call, call.Allowed moment.connection)
    (handler : Handler Memory) (client : Nat) :
    moment.GrowsInto (moment.follow handler client move) where
  callbacks := by
    rw [callbacks_follow]
    exact List.prefix_append _ _
  details := by
    intro details known
    rw [connection_follow]
    unfold Connection.follow
    split
    · exact known
    · exact Connection.details_perform known _
  output := by
    rw [connection_follow, written_follow]
    unfold Connection.follow
    split
    · exact List.prefix_rfl
    · rename_i call called
      exact account.output_perform_prefix (allowed call called)

theorem growsInto_take (account : Account moment.journal moment.connection moment.written)
    {stage : Stage} {task : Task} {rest : List Task}
    (standing : Standing stage moment.connection (task :: rest)) (handler : Handler Memory)
    (client : Nat) : moment.GrowsInto (moment.take handler client task rest) := by
  unfold Moment.take
  split
  · exact growsInto_turnTo moment _
  · have took : Account (moment.journal ++ [.took task moment.connection.state]) moment.connection
        moment.written := account.note ⟨fun _ => rfl, rfl, not_false⟩
    have noted : moment.GrowsInto (moment.note (.took task moment.connection.state)) :=
      growsInto_of_notes moment moment.memory moment.activity _
    exact noted.trans (growsInto_follow (moment.note _) took standing.allowed handler client)

theorem growsInto_react (account : Account moment.journal moment.connection moment.written)
    (tasks : List Task) (reaction : Reaction Memory) :
    moment.GrowsInto (moment.react tasks reaction) := by
  cases reaction with
  | done memory => exact growsInto_remember moment memory _
  | inspect next => exact growsInto_turnTo moment _
  | send opcode payload next =>
    exact (growsInto_send account opcode payload).trans (growsInto_turnTo _ _)
  | close code next =>
    have closed : moment.GrowsInto (moment.call (.close code)) := growsInto_call account trivial
    exact closed.trans (growsInto_turnTo _ _)

theorem growsInto_proceed (regular : moment.Regular) (handler : Handler Memory) (client : Nat) :
    moment.GrowsInto (moment.proceed handler client) := by
  obtain ⟨⟨account, -⟩, stage, disciplined⟩ := regular
  have standing := disciplined.standing
  unfold Moment.proceed
  split
  · exact .refl moment
  · exact growsInto_turnTo moment _
  · rename_i works
    rw [works] at standing
    exact growsInto_take account standing handler client
  · exact growsInto_react account _ _

theorem growsInto_arrive (moment : Moment Memory) (settings : Settings) (arrival : Arrival) :
    moment.GrowsInto (moment.arrive settings arrival) := by
  unfold Moment.arrive
  split
  · exact growsInto_turnTo moment _
  · exact .refl moment

theorem growsInto_write (moment : Moment Memory) : moment.GrowsInto moment.write := by
  have alike := (Alike.refl moment).write
  exact ⟨alike.callbacks ▸ List.prefix_rfl, fun _ known => alike.connection.details.trans known,
    alike.connection.output ▸ List.prefix_rfl⟩

/-- No turn takes anything back, a failing write apart. -/
theorem Regular.growsInto_turn (regular : moment.Regular) (handler : Handler Memory)
    (settings : Settings) (client : Nat) {turn : Turn Memory}
    (writes : ∀ count, turn ≠ .failWrite count) :
    moment.GrowsInto (moment.turn handler settings client turn) := by
  have account := regular.accounted.account
  cases turn with
  | arrive arrival => exact growsInto_arrive moment settings arrival
  | proceed => exact growsInto_proceed regular handler client
  | send opcode payload =>
    simp only [Moment.turn]
    split
    · exact .refl moment
    · exact growsInto_send account opcode payload
  | close code =>
    simp only [Moment.turn]
    split
    · exact .refl moment
    · exact growsInto_call account trivial
  | remember memory => exact growsInto_remember moment memory _
  | write => exact growsInto_write moment
  | failWrite count => exact absurd rfl (writes count)

end Growing

end Moment

end CashHerald.Session
