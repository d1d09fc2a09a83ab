import CashHerald.Proofs.Session.Transmission

/-!
Runs of a connection whose socket, session and writer are all there is. The writer may be as far
behind as it likes: what the session does depends on what has been written or queued, and not on
where the writer stands. Main statement: such a run tells the handler, and writes, what the steps of
the session make of the arrivals.
-/

namespace CashHerald.Session

namespace Connection

/-- Two connections whose writers may have got differently far with the same output. -/
structure Alike (first : Connection) (done : Octets) (second : Connection) (written : Octets) :
    Prop where
  state : first.state = second.state
  details : first.details = second.details
  output : first.output done = second.output written

variable {first second : Connection} {done written : Octets}

theorem enqueue_withState (connection : Connection) (state : State) (item : Outbound) :
    (connection.withState state).enqueue item = (connection.enqueue item).withState state := by
  by_cases attached : connection.attached = true <;> simp [enqueue, withState, attached]

theorem Alike.isAvailable (alike : first.Alike done second written) :
    first.isAvailable = second.isAvailable := by
  simp only [Connection.isAvailable, alike.state]

end Connection

namespace Account

variable {journal : List Note} {connection : Connection} {done : Octets}

/-- An available connection has its writer, and no other has an end still to come. -/
theorem goes_or_ended (account : Account journal connection done) :
    connection.isAvailable = true ∧ connection.Goes ∨
      connection.isAvailable = false ∧ connection.Ended := by
  cases account with
  | silent => exact .inl ⟨rfl, rfl, rfl⟩
  | speaking state goes => exact .inl ⟨by simp [Connection.isAvailable, state], goes⟩
  | refused unopened state ended =>
    exact .inr ⟨by rcases state with state | state <;> simp [Connection.isAvailable, state], ended⟩
  | closing state ended =>
    exact .inr ⟨by rcases state with ⟨state, -⟩ | state <;> simp [Connection.isAvailable, state],
      ended⟩

theorem eq_fresh_of_connecting (account : Account journal connection done)
    (state : connection.state = .connecting) : connection = .fresh ∧ done = [] := by
  cases account with
  | silent => exact ⟨rfl, rfl⟩
  | speaking other => rw [state] at other; cases other
  | refused _ other => rw [state] at other; rcases other with other | other <;> cases other
  | closing other => rw [state] at other; rcases other with ⟨other, -⟩ | other <;> cases other

/-- Whatever is queued for an available connection is part of the output. -/
theorem output_enqueue (account : Account journal connection done) (item : Outbound) :
    (connection.enqueue item).output done =
      connection.output done ++ if connection.isAvailable then item.octets else [] := by
  rcases account.goes_or_ended with ⟨available, goes⟩ | ⟨unavailable, ended⟩
  · rw [goes.output_enqueue, if_pos available]
  · rw [ended.output_enqueue, if_neg (by simp [unavailable]), List.append_nil]

end Account

namespace Connection.Alike

variable {first second : Connection} {done written : Octets} {journal other : List Note}

theorem enqueue (alike : first.Alike done second written) (account : Account journal first done)
    (otherAccount : Account other second written) (item : Outbound) :
    (first.enqueue item).Alike done (second.enqueue item) written where
  state := by simpa using alike.state
  details := by simpa using alike.details
  output := by
    rw [account.output_enqueue, otherAccount.output_enqueue, alike.output, alike.isAvailable]

theorem withState (alike : first.Alike done second written) (state : State) :
    (first.withState state).Alike done (second.withState state) written :=
  ⟨rfl, alike.details, alike.output⟩

theorem refusal? (alike : first.Alike done second written) (account : Account journal first done)
    (otherAccount : Account other second written) (opcode : Wire.Opcode) (payload : Octets) :
    first.refusal? opcode payload = second.refusal? opcode payload := by
  have frame : first.frame? opcode payload = second.frame? opcode payload := by
    simp only [Connection.frame?, alike.details]
  unfold Connection.refusal?
  rw [alike.state, alike.details, frame]
  split
  · rfl
  · rfl
  · rfl
  · rename_i opened
    rw [(account.of_opened (alike.state.trans opened)).1.attached,
      (otherAccount.of_opened opened).1.attached]

theorem send (alike : first.Alike done second written) (account : Account journal first done)
    (otherAccount : Account other second written) (opcode : Wire.Opcode) (payload : Octets) :
    (first.send opcode payload).1.Alike done (second.send opcode payload).1 written ∧
      (first.send opcode payload).2 = (second.send opcode payload).2 := by
  have frame : first.frame? opcode payload = second.frame? opcode payload := by
    simp only [Connection.frame?, alike.details]
  unfold Connection.send
  rw [alike.refusal? account otherAccount, frame]
  split
  · exact ⟨alike, rfl⟩
  · split
    · exact ⟨alike, rfl⟩
    · exact ⟨alike.enqueue account otherAccount _, rfl⟩

theorem close (alike : first.Alike done second written) (account : Account journal first done)
    (otherAccount : Account other second written) (code : UInt16) :
    (first.close code).Alike done (second.close code) written := by
  have frame : first.closeFrame? code = second.closeFrame? code := by
    simp only [Connection.closeFrame?, alike.details]
  unfold Connection.close
  rw [alike.isAvailable, frame]
  split
  · rw [enqueue_withState, enqueue_withState]
    exact (alike.enqueue account otherAccount _).withState .closing
  · exact alike

/-- Calls have the same outcome on connections that differ in what has been written only. -/
theorem perform (alike : first.Alike done second written) (account : Account journal first done)
    (otherAccount : Account other second written) {call : Call} (allowed : call.Allowed first) :
    (first.perform call).1.Alike done (second.perform call).1 written ∧
      (first.perform call).2 = (second.perform call).2 := by
  have fresh (new : first = .fresh) : first = second ∧ done = written := by
    subst new
    obtain ⟨rfl, rfl⟩ := otherAccount.eq_fresh_of_connecting alike.state.symm
    exact ⟨rfl, (account.eq_fresh_of_connecting rfl).2⟩
  cases call with
  | servePolicy =>
    obtain ⟨rfl, rfl⟩ := fresh allowed
    exact ⟨⟨rfl, rfl, rfl⟩, rfl⟩
  | complete details response =>
    obtain ⟨rfl, rfl⟩ := fresh allowed.1
    exact ⟨⟨rfl, rfl, rfl⟩, rfl⟩
  | close code => exact ⟨alike.close account otherAccount code, rfl⟩
  | finish => exact ⟨(alike.enqueue account otherAccount (.close none)).withState .closed, rfl⟩

end Connection.Alike

/-- A task comes to the same on connections that differ in what has been written only. -/
theorem Task.move_congr {first second : Connection} {done written : Octets}
    {journal other : List Note} (alike : first.Alike done second written)
    (account : Account journal first done) (otherAccount : Account other second written)
    {task : Task} {rest : List Task}
    (allowed : ∀ call ∈ (task.move first rest).call, call.Allowed first) :
    task.move first rest = task.move second rest := by
  cases task with
  | complete details response =>
    have needed : (Call.complete details response).Allowed first := by
      refine allowed _ ?_
      simp only [move]
      split <;> rfl
    have outcome := (alike.perform account otherAccount needed).2
    simp only [Connection.perform] at outcome
    simp only [move, outcome]
  | deliver message => simp only [move, alike.isAvailable]
  | report fault => simp only [move, alike.details]
  | finish =>
    have opened : first.hasOpened = second.hasOpened := by
      simp only [Connection.hasOpened, alike.details]
    simp only [move]
    rw [alike.state, opened]
  | _ => rfl

/-- A session that waits for its socket has an available connection. -/
theorem Scene.isAvailable_of_carryOut {Memory : Type} {handler : Handler Memory} {client : Nat}
    (scene : Scene Memory) (tasks : List Task)
    (waits : (scene.carryOut handler client tasks).2 ≠ .ended) :
    (scene.carryOut handler client tasks).1.connection.isAvailable = true := by
  induction scene, tasks using Scene.carryOut.induct handler client with
  | case1 scene =>
    rw [carryOut] at waits
    exact absurd rfl waits
  | case2 scene task rest phase rests =>
    simp only [carryOut, rests]
    cases task with
    | wait next => exact (Option.ite_none_right_eq_some.mp rests).1
    | _ => cases rests
  | case3 scene task rest works inductionHypothesis =>
    simp only [carryOut, works] at waits ⊢
    exact inductionHypothesis waits

section Steps

variable {Memory : Type}

/-- A fresh session after some arrivals, with what the handler then remembers. -/
def stepAll (handler : Handler Memory) (settings : Settings) (client : Nat) (memory : Memory)
    (arrivals : List Arrival) : Session × Memory :=
  arrivals.foldl (fun stepped => stepped.1.step handler settings client stepped.2) (.fresh, memory)

variable {handler : Handler Memory} {settings : Settings} {client : Nat} {memory : Memory}

theorem stepAll_concat (arrivals : List Arrival) (arrival : Arrival) :
    stepAll handler settings client memory (arrivals ++ [arrival]) =
      (stepAll handler settings client memory arrivals).1.step handler settings client
        (stepAll handler settings client memory arrivals).2 arrival :=
  by
  rw [stepAll, List.foldl_append]
  rfl

theorem isAvailable_stepAll {arrivals : List Arrival}
    (waits : (stepAll handler settings client memory arrivals).1.phase ≠ .ended) :
    (stepAll handler settings client memory arrivals).1.connection.isAvailable = true := by
  induction arrivals using List.reverseRecOn with
  | nil => rfl
  | append_singleton arrivals arrival _ =>
    rw [stepAll_concat] at waits ⊢
    exact Scene.isAvailable_of_carryOut _ _ waits

end Steps

namespace Moment

variable {Memory : Type}

/-- A moment of a run in which no write has failed. -/
structure Regular (moment : Moment Memory) : Prop where
  accounted : moment.Accounted
  disciplined : ∃ stage, moment.Disciplined stage

theorem regular_start (memory : Memory) : (start memory).Regular :=
  ⟨accounted_start memory, .unheard, disciplined_start memory⟩

theorem Regular.turn {moment : Moment Memory} (regular : moment.Regular) (handler : Handler Memory)
    (settings : Settings) (client : Nat) (turn : Turn Memory)
    (writes : ∀ count, turn ≠ .failWrite count) :
    (moment.turn handler settings client turn).Regular := by
  obtain ⟨accounted, stage, disciplined⟩ := regular
  exact ⟨accounted.turn disciplined handler settings client writes,
    disciplined.turn handler settings client turn⟩

/-- Two moments that differ in how far the writer has got, and in nothing that the handler or the
peer can tell. -/
structure Alike (first second : Moment Memory) : Prop where
  connection : first.connection.Alike first.written second.connection second.written
  memory : first.memory = second.memory
  activity : first.activity = second.activity
  callbacks : first.callbacks = second.callbacks

namespace Alike

variable {first second : Moment Memory}

theorem refl (moment : Moment Memory) : moment.Alike moment :=
  ⟨⟨rfl, rfl, rfl⟩, rfl, rfl, rfl⟩

theorem turnTo (alike : first.Alike second) (activity : Activity Memory) :
    (first.turnTo activity).Alike (second.turnTo activity) :=
  ⟨alike.connection, alike.memory, rfl, alike.callbacks⟩

theorem arrive (alike : first.Alike second) (settings : Settings) (arrival : Arrival) :
    (first.arrive settings arrival).Alike (second.arrive settings arrival) := by
  unfold Moment.arrive
  rw [alike.activity]
  split
  · exact alike.turnTo _
  · exact alike

/-- What the writer writes has been part of the output before. -/
theorem write (alike : first.Alike second) : first.write.Alike second := by
  unfold Moment.write
  split
  · exact alike
  · rename_i octets rest queued
    refine ⟨⟨alike.connection.state, alike.connection.details, ?_⟩, alike.memory, alike.activity,
      alike.callbacks⟩
    rw [← alike.connection.output, Connection.output, Connection.output, queued, List.append_assoc]
    rfl
  · rename_i frame rest queued
    refine ⟨⟨alike.connection.state, alike.connection.details, ?_⟩, alike.memory, alike.activity,
      alike.callbacks⟩
    rw [← alike.connection.output, Connection.output, Connection.output, queued]
    exact List.append_nil _

/-- The session makes the same of a move. -/
theorem follow (alike : first.Alike second)
    (account : Account first.journal first.connection first.written)
    (otherAccount : Account second.journal second.connection second.written) {move : Move}
    (allowed : ∀ call ∈ move.call, call.Allowed first.connection) (handler : Handler Memory)
    (client : Nat) :
    (first.follow handler client move).Alike (second.follow handler client move) := by
  have heard : (first.follow handler client move).callbacks =
      (second.follow handler client move).callbacks := by
    rw [callbacks_follow, callbacks_follow, alike.callbacks]
  have called : (first.connection.follow move).Alike first.written (second.connection.follow move)
      second.written := by
    unfold Connection.follow
    split
    · exact alike.connection
    · rename_i call known
      exact (alike.connection.perform account otherAccount (allowed call known)).1
  obtain ⟨call, event, left⟩ := move
  cases event with
  | none => exact ⟨called, alike.memory, rfl, heard⟩
  | some event =>
    refine ⟨called, alike.memory, ?_, heard⟩
    simp only [Moment.follow, Moment.tell, Moment.turnTo, Moment.note, alike.memory]

theorem react (alike : first.Alike second) (accounted : first.Accounted)
    (otherAccounted : second.Accounted) (tasks : List Task) (reaction : Reaction Memory) :
    (first.react tasks reaction).Alike (second.react tasks reaction) := by
  have silent (moment : Moment Memory) {note : Note} (quiet : note.event? = none) :
      Note.events (moment.journal ++ [note]) = moment.callbacks :=
    Note.events_note quiet moment.journal
  cases reaction with
  | done memory => exact ⟨alike.connection, rfl, rfl, alike.callbacks⟩
  | inspect next =>
    simp only [Moment.react, alike.connection.state, alike.connection.details]
    exact alike.turnTo _
  | send opcode payload next =>
    obtain ⟨sent, outcome⟩ :=
      alike.connection.send accounted.account otherAccounted.account opcode payload
    simp only [Moment.react, outcome]
    refine ⟨sent, alike.memory, rfl, ?_⟩
    exact (silent first rfl).trans (alike.callbacks.trans (silent second rfl).symm)
  | close code next =>
    refine ⟨alike.connection.close accounted.account otherAccounted.account code, alike.memory,
      rfl, ?_⟩
    exact (silent first rfl).trans (alike.callbacks.trans (silent second rfl).symm)

/-- The session goes on in the same way. -/
theorem proceed (alike : first.Alike second) (regular : first.Regular)
    (otherRegular : second.Regular) (handler : Handler Memory) (client : Nat) :
    (first.proceed handler client).Alike (second.proceed handler client) := by
  have accounted := regular.accounted
  have otherAccounted := otherRegular.accounted
  unfold Moment.proceed
  rw [← alike.activity]
  split
  · exact alike
  · exact alike.turnTo _
  · rename_i task rest works
    obtain ⟨stage, disciplined⟩ := regular.disciplined
    have standing := disciplined.standing
    rw [works] at standing
    have rests : task.rest? first.connection = task.rest? second.connection := by
      cases task <;> simp only [Task.rest?, alike.connection.isAvailable]
    have same := Task.move_congr alike.connection accounted.account otherAccounted.account
      standing.allowed
    unfold Moment.take
    rw [rests, ← same]
    split
    · exact alike.turnTo _
    · have noted : (first.note (.took task first.connection.state)).Alike
          (second.note (.took task second.connection.state)) := by
        refine ⟨alike.connection, alike.memory, alike.activity, ?_⟩
        exact (Note.events_note rfl _).trans (alike.callbacks.trans (Note.events_note rfl _).symm)
      exact noted.follow (accounted.account.note ⟨fun _ => rfl, rfl, not_false⟩)
        (otherAccounted.account.note ⟨fun _ => rfl, rfl, not_false⟩) standing.allowed handler client
  · rename_i reaction tasks works
    exact alike.react accounted otherAccounted tasks reaction

end Alike

/-- A session that waits does nothing by itself. -/
theorem Proceeds.eq_of_waiting {handler : Handler Memory} {settings : Settings} {client : Nat}
    {earlier later : Moment Memory} {phase : Phase} (waits : earlier.activity = .waiting phase)
    (reached : Proceeds handler settings client earlier later) : later = earlier := by
  obtain ⟨count, rfl⟩ := reached
  induction count with
  | zero => rfl
  | succ count inductionHypothesis =>
    have still : earlier.proceed handler client = earlier := by
      simp only [Moment.proceed, waits]
    rw [List.replicate_succ]
    refine Eq.trans ?_ inductionHypothesis
    exact congrArg (Moment.run handler settings client · _) still

/-- On its way to a moment in which it waits, a session gets there from each step. -/
theorem Proceeds.tail {handler : Handler Memory} {settings : Settings} {client : Nat}
    {earlier later : Moment Memory} {phase : Phase} (waits : later.activity = .waiting phase)
    (reached : Proceeds handler settings client earlier later) :
    Proceeds handler settings client (earlier.proceed handler client) later := by
  obtain ⟨count, same⟩ := reached
  cases count with
  | zero =>
    obtain rfl : earlier = later := same
    have still : earlier.proceed handler client = earlier := by
      simp only [Moment.proceed, waits]
    rw [still]
    exact .refl _
  | succ count => exact ⟨count, same⟩

/-- What an undisturbed run of a connection may come to after some arrivals. The session takes up
an arrival when it waits for one, and nothing comes of arrivals that are left when it has ended. It
also learns that the writer has left. -/
inductive Undisturbed (handler : Handler Memory) (settings : Settings) (client : Nat)
    (memory : Memory) : List Arrival → Moment Memory → Prop
  | start : Undisturbed handler settings client memory [] (start memory)
  | arrive {arrivals : List Arrival} {moment : Moment Memory} {phase : Phase}
    (earlier : Undisturbed handler settings client memory arrivals moment)
    (waits : moment.activity = .waiting phase) (arrival : Arrival) :
    Undisturbed handler settings client memory (arrivals ++ [arrival])
      (moment.arrive settings arrival)
  | proceed {arrivals : List Arrival} {moment : Moment Memory}
    (earlier : Undisturbed handler settings client memory arrivals moment) :
    Undisturbed handler settings client memory arrivals (moment.proceed handler client)
  | write {arrivals : List Arrival} {moment : Moment Memory}
    (earlier : Undisturbed handler settings client memory arrivals moment) :
    Undisturbed handler settings client memory arrivals moment.write
  | writerEnds {arrivals : List Arrival} {moment : Moment Memory}
    (earlier : Undisturbed handler settings client memory arrivals moment)
    (left : moment.connection.attached = false) :
    Undisturbed handler settings client memory arrivals (moment.arrive settings .writerEnded)

/-- A session that waits after the steps that it made of some arrivals, with nothing written. -/
def resting (stepped : Session × Memory × List Event) (journal : List Note) : Moment Memory :=
  ⟨stepped.1.connection, stepped.2.1, .waiting stepped.1.phase, [], journal⟩

/-- A moment of an undisturbed run is like one of a run without a writer, and that comes to what the
steps of the session make of the arrivals. -/
structure Shadowed (handler : Handler Memory) (settings : Settings) (client : Nat)
    (stepped : Session × Memory × List Event) (moment shadow : Moment Memory) : Prop where
  alike : moment.Alike shadow
  regular : moment.Regular
  shadowRegular : shadow.Regular
  comes : ∃ journal, Note.events journal = stepped.2.2 ∧
    Proceeds handler settings client shadow (resting stepped journal)

namespace Shadowed

variable {handler : Handler Memory} {settings : Settings} {client : Nat}
  {stepped : Session × Memory × List Event} {moment shadow : Moment Memory}

theorem start (memory : Memory) : Shadowed handler settings client (.fresh, memory, [])
    (start memory) (start memory) :=
  ⟨.refl _, regular_start memory, regular_start memory, [], rfl, .refl _⟩

theorem proceed (shadowed : Shadowed handler settings client stepped moment shadow) :
    Shadowed handler settings client stepped (moment.proceed handler client)
      (shadow.proceed handler client) where
  alike := shadowed.alike.proceed shadowed.regular shadowed.shadowRegular handler client
  regular := shadowed.regular.turn handler settings client .proceed (by simp)
  shadowRegular := shadowed.shadowRegular.turn handler settings client .proceed (by simp)
  comes := by
    obtain ⟨journal, told, reached⟩ := shadowed.comes
    exact ⟨journal, told, reached.tail rfl⟩

theorem write (shadowed : Shadowed handler settings client stepped moment shadow) :
    Shadowed handler settings client stepped moment.write shadow where
  alike := shadowed.alike.write
  regular := shadowed.regular.turn handler settings client .write (by simp)
  shadowRegular := shadowed.shadowRegular
  comes := shadowed.comes

/-- A session that waits has come to what its steps have made of the arrivals. -/
theorem eq_resting (shadowed : Shadowed handler settings client stepped moment shadow)
    {phase : Phase} (waits : moment.activity = .waiting phase) :
    ∃ journal, Note.events journal = stepped.2.2 ∧ shadow = resting stepped journal := by
  obtain ⟨journal, told, reached⟩ := shadowed.comes
  have shadowWaits := shadowed.alike.activity.symm.trans waits
  exact ⟨journal, told, (reached.eq_of_waiting shadowWaits).symm⟩

theorem arrive (shadowed : Shadowed handler settings client stepped moment shadow) {phase : Phase}
    (waits : moment.activity = .waiting phase) (arrival : Arrival) :
    Shadowed handler settings client
      (stepped.1.step handler.noting settings client stepped.2 arrival)
      (moment.arrive settings arrival) (shadow.arrive settings arrival) where
  alike := shadowed.alike.arrive settings arrival
  regular := shadowed.regular.turn handler settings client (.arrive arrival) (by simp)
  shadowRegular :=
    shadowed.shadowRegular.turn handler settings client (.arrive arrival) (by simp)
  comes := by
    obtain ⟨journal, told, rfl⟩ := shadowed.eq_resting waits
    obtain ⟨later, heard, reached⟩ := exists_proceeds_arrive handler settings client
      stepped.1.phase arrival stepped.1.connection stepped.2.1 [] journal
    rw [told] at heard reached
    exact ⟨later, heard, reached⟩

/-- A writer leaves behind an end only, which is queued when the session has nothing more to wait
for. -/
theorem writerEnds (shadowed : Shadowed handler settings client stepped moment shadow)
    (available : stepped.1.phase ≠ .ended → stepped.1.connection.isAvailable = true)
    (left : moment.connection.attached = false) :
    ∃ later, Shadowed handler settings client stepped (moment.arrive settings .writerEnded)
      later := by
  rcases activity : moment.activity with phase | _ | _
  · obtain ⟨journal, told, rfl⟩ := shadowed.eq_resting activity
    -- A session that goes on has an available connection, which has its writer.
    have ended : stepped.1.phase = .ended := by
      by_contra goesOn
      have same := shadowed.alike.connection.isAvailable.trans (available goesOn)
      rcases shadowed.regular.accounted.account.goes_or_ended with ⟨-, goes⟩ | ⟨unavailable, -⟩
      · rw [goes.attached] at left
        cases left
      · rw [same] at unavailable
        cases unavailable
    refine ⟨(resting stepped journal).arrive settings .writerEnded,
      shadowed.alike.arrive settings _, ?_, ?_, journal, told, .head ?_⟩
    · exact shadowed.regular.turn handler settings client (.arrive .writerEnded) (by simp)
    · exact shadowed.shadowRegular.turn handler settings client (.arrive .writerEnded)
        (by simp)
    · have nothing : Phase.tasks settings .ended .writerEnded = [] := rfl
      simp only [resting, Moment.arrive, ended, nothing, Moment.turnTo, Moment.proceed]
      exact .refl _
  · refine ⟨shadow, ?_⟩
    rwa [Moment.arrive, activity]
  · refine ⟨shadow, ?_⟩
    rwa [Moment.arrive, activity]

end Shadowed

namespace Undisturbed

variable {handler : Handler Memory} {settings : Settings} {client : Nat} {memory : Memory}
  {arrivals : List Arrival} {moment : Moment Memory}

/-- What the steps of a fresh session make of some arrivals, with the events that are told. -/
abbrev stepped (handler : Handler Memory) (settings : Settings) (client : Nat) (memory : Memory)
    (arrivals : List Arrival) : Session × Memory × List Event :=
  stepAll handler.noting settings client (memory, []) arrivals

theorem exists_shadowed (run : Undisturbed handler settings client memory arrivals moment) :
    ∃ shadow, Shadowed handler settings client (stepped handler settings client memory arrivals)
      moment shadow := by
  induction run with
  | start => exact ⟨_, .start memory⟩
  | arrive earlier waits arrival inductionHypothesis =>
    obtain ⟨shadow, shadowed⟩ := inductionHypothesis
    rw [stepped, stepAll_concat]
    exact ⟨_, shadowed.arrive waits arrival⟩
  | proceed earlier inductionHypothesis =>
    obtain ⟨shadow, shadowed⟩ := inductionHypothesis
    exact ⟨_, shadowed.proceed⟩
  | write earlier inductionHypothesis =>
    obtain ⟨shadow, shadowed⟩ := inductionHypothesis
    exact ⟨_, shadowed.write⟩
  | writerEnds earlier left inductionHypothesis =>
    obtain ⟨shadow, shadowed⟩ := inductionHypothesis
    exact shadowed.writerEnds isAvailable_stepAll left

/-- Whenever the session waits, it is where its steps have led. -/
theorem of_waiting (run : Undisturbed handler settings client memory arrivals moment)
    {phase : Phase} (waits : moment.activity = .waiting phase) :
    phase = (stepped handler settings client memory arrivals).1.phase ∧
      moment.callbacks = (stepped handler settings client memory arrivals).2.2 ∧
      moment.connection.output moment.written =
        (stepped handler settings client memory arrivals).1.connection.output [] := by
  obtain ⟨shadow, shadowed⟩ := run.exists_shadowed
  obtain ⟨journal, told, rfl⟩ := shadowed.eq_resting waits
  exact ⟨Activity.waiting.inj (waits.symm.trans shadowed.alike.activity),
    shadowed.alike.callbacks.trans told, shadowed.alike.connection.output⟩

theorem proceeds {later : Moment Memory}
    (run : Undisturbed handler settings client memory arrivals moment)
    (reached : Proceeds handler settings client moment later) :
    Undisturbed handler settings client memory arrivals later := by
  obtain ⟨count, rfl⟩ := reached
  induction count generalizing moment with
  | zero => exact run
  | succ count inductionHypothesis => exact inductionHypothesis run.proceed

theorem writes (run : Undisturbed handler settings client memory arrivals moment) (count : Nat) :
    Undisturbed handler settings client memory arrivals
      (moment.run handler settings client (List.replicate count .write)) := by
  induction count generalizing moment with
  | zero => exact run
  | succ count inductionHypothesis => exact inductionHypothesis run.write

/-- Arrivals can be taken up until the session waits behind the last one. -/
theorem exists_waiting (handler : Handler Memory) (settings : Settings) (client : Nat)
    (memory : Memory) (arrivals : List Arrival) : ∃ moment phase,
    Undisturbed handler settings client memory arrivals moment ∧
      moment.activity = .waiting phase := by
  induction arrivals using List.reverseRecOn with
  | nil => exact ⟨_, _, .start, rfl⟩
  | append_singleton arrivals arrival inductionHypothesis =>
    obtain ⟨moment, phase, run, waits⟩ := inductionHypothesis
    obtain ⟨next, later, reached, laterWaits⟩ := exists_proceeds_waiting handler settings client
      (moment.arrive settings arrival)
    exact ⟨later, next, (run.arrive waits arrival).proceeds reached, laterWaits⟩

end Undisturbed

/-- An undisturbed run that has come to its end: the session has ended and all is written. -/
structure Undisturbed.Complete (handler : Handler Memory) (settings : Settings) (client : Nat)
    (memory : Memory) (arrivals : List Arrival) (last : Moment Memory) : Prop where
  run : Undisturbed handler settings client memory arrivals last
  ended : last.activity = .waiting .ended
  written : last.connection.queue = []

namespace Undisturbed

variable {handler : Handler Memory} {settings : Settings} {client : Nat} {memory : Memory}
  {arrivals : List Arrival} {last : Moment Memory}

/-- A complete run has told the handler and written what the steps of the session make of the
arrivals. -/
theorem Complete.outcome (complete : Complete handler settings client memory arrivals last) :
    last.callbacks = (stepped handler settings client memory arrivals).2.2 ∧
      last.written = (stepped handler settings client memory arrivals).1.connection.output [] := by
  obtain ⟨-, told, output⟩ := complete.run.of_waiting complete.ended
  rw [Connection.output, complete.written] at output
  exact ⟨told, (List.append_nil _).symm.trans output⟩

/-- A run whose stream ends can be brought to its end. -/
theorem exists_complete (handler : Handler Memory) (settings : Settings) (client : Nat)
    (memory : Memory) (arrivals : List Arrival) :
    ∃ last, Complete handler settings client memory (arrivals ++ [.endOfStream]) last := by
  obtain ⟨moment, phase, run, waits⟩ := exists_waiting handler settings client memory
    (arrivals ++ [.endOfStream])
  have ended : phase = .ended := by
    rw [(run.of_waiting waits).1, stepped, stepAll_concat]
    exact Session.phase_step_endOfStream _ _ _ _ _
  obtain ⟨count, flushed⟩ := exists_writes handler settings client moment.connection moment.memory
    moment.activity moment.written moment.journal
  refine ⟨_, flushed ▸ run.writes count, ?_, ?_⟩
  · exact waits.trans (congrArg Activity.waiting ended)
  · rfl

end Undisturbed

end Moment

end CashHerald.Session
