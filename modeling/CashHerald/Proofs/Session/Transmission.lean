import CashHerald.Proofs.Session.Callbacks

/-!
What is written on one connection. The octets that a writer has written, with those that are queued
for it, always agree with the sends and calls noted so far. Main statement: as long as no write
fails, a writer that has caught up has written nothing, the policy, or the response to the handshake
with the frames of all accepted sends behind it and at most one close frame at the end.
-/

namespace CashHerald.Session

/-- The frame of a send that was accepted, if the dialect has one. -/
def Note.frame? (dialect : Wire.Dialect) : Note → Option Octets
  | .sent opcode payload (.ok ()) => dialect.encode? opcode payload
  | _ => none

/-- The code of a call to close, with the state in which it was made. -/
def Note.close? : Note → Option (UInt16 × State)
  | .called (.close code) state _ => some (code, state)
  | _ => none

/-- The frames of the sends that were accepted, in order. -/
def frames (dialect : Wire.Dialect) (journal : List Note) : Octets :=
  (journal.filterMap (Note.frame? dialect)).flatten

/-- The code of the first call to close, with the state in which it was made. -/
def firstClose? (journal : List Note) : Option (UInt16 × State) :=
  journal.findSome? Note.close?

/-- What a first call to close writes: in the standard framing, if the connection was open, a close
frame with the code, or without one if the code may not be sent. -/
def closeOctets : Wire.Dialect → Option (UInt16 × State) → Octets
  | .hybi13, some (code, .opened) =>
    Wire.Frame.encode
      ⟨.close, true,
        if Wire.CloseCode.isSendable code then Octets.bigEndian 2 code.toNat else []⟩
  | _, _ => []

/-- What the first call to close writes behind the frames. -/
def ending (dialect : Wire.Dialect) (journal : List Note) : Octets :=
  closeOctets dialect (firstClose? journal)

/-- An item behind which the writer leaves. -/
def Outbound.isEnd : Outbound → Bool
  | .data _ => false
  | .close _ => true

namespace Connection

/-- Behind an end nothing is written. -/
theorem written_append_of_ended {queue : List Outbound} (ended : (written queue).2 = true)
    (item : Outbound) : written (queue ++ [item]) = written queue := by
  induction queue with
  | nil => cases ended
  | cons first rest inductionHypothesis =>
    cases first with
    | data octets => simp only [List.cons_append, written, inductionHypothesis ended]
    | close frame => rfl

/-- An item behind a queue without an end is written last. -/
theorem written_append_of_open {queue : List Outbound} (goes : (written queue).2 = false)
    (item : Outbound) :
    written (queue ++ [item]) = ((written queue).1 ++ item.octets, item.isEnd) := by
  induction queue with
  | nil => cases item <;> simp [written, Outbound.octets, Outbound.isEnd]
  | cons first rest inductionHypothesis =>
    cases first with
    | data octets =>
      simp only [List.cons_append, written, inductionHypothesis goes, List.append_assoc]
    | close frame => cases goes

/-- What has been written with what is queued behind it. -/
def output (connection : Connection) (done : Octets) : Octets :=
  done ++ (written connection.queue).1

/-- Whoever is attached has an end to come. -/
def Ended (connection : Connection) : Prop :=
  connection.attached = true → (written connection.queue).2 = true

/-- The writer is attached and has no end to come. -/
structure Goes (connection : Connection) : Prop where
  attached : connection.attached = true
  endless : (written connection.queue).2 = false

variable {connection : Connection}

theorem Goes.written_enqueue (goes : connection.Goes) (item : Outbound) :
    written (connection.enqueue item).queue =
      ((written connection.queue).1 ++ item.octets, item.isEnd) := by
  rw [← written_append_of_open goes.endless item, enqueue, if_pos goes.attached]

theorem Goes.output_enqueue (goes : connection.Goes) (item : Outbound) (done : Octets) :
    (connection.enqueue item).output done = connection.output done ++ item.octets := by
  rw [output, goes.written_enqueue, output, List.append_assoc]

theorem Goes.ended_enqueue (goes : connection.Goes) {item : Outbound} (last : item.isEnd = true) :
    (connection.enqueue item).Ended := by
  intro _
  rw [goes.written_enqueue]
  exact last

theorem Goes.enqueue (goes : connection.Goes) {item : Outbound} (more : item.isEnd = false) :
    (connection.enqueue item).Goes where
  attached := by rw [Connection.enqueue, if_pos goes.attached]
  endless := by rw [goes.written_enqueue]; exact more

theorem Ended.written_enqueue (ended : connection.Ended) (item : Outbound) :
    written (connection.enqueue item).queue = written connection.queue := by
  by_cases attached : connection.attached = true
  · rw [Connection.enqueue, if_pos attached]
    exact written_append_of_ended (ended attached) item
  · rw [Connection.enqueue, if_neg attached]

theorem Ended.output_enqueue (ended : connection.Ended) (item : Outbound) (done : Octets) :
    (connection.enqueue item).output done = connection.output done := by
  rw [output, ended.written_enqueue, output]

theorem Ended.enqueue (ended : connection.Ended) (item : Outbound) :
    (connection.enqueue item).Ended := by
  intro attached
  rw [ended.written_enqueue]
  refine ended ?_
  by_contra left
  rw [Connection.enqueue, if_neg left] at attached
  exact left attached

end Connection

theorem frames_append (dialect : Wire.Dialect) (front back : List Note) :
    frames dialect (front ++ back) = frames dialect front ++ frames dialect back := by
  simp [frames]

theorem firstClose?_append (front back : List Note) :
    firstClose? (front ++ back) = (firstClose? front).or (firstClose? back) := by
  simp [firstClose?, List.findSome?_append]

/-- A note that has no part in what is written. -/
structure Note.Quiet (note : Note) : Prop where
  frame : ∀ dialect, note.frame? dialect = none
  close : note.close? = none
  opening : ¬ note.completes

theorem frames_note {note : Note} (quiet : note.Quiet) (dialect : Wire.Dialect)
    (journal : List Note) : frames dialect (journal ++ [note]) = frames dialect journal := by
  simp [frames, quiet.frame dialect]

theorem firstClose?_note {note : Note} (quiet : note.Quiet) (journal : List Note) :
    firstClose? (journal ++ [note]) = firstClose? journal := by
  simp [firstClose?, List.findSome?_append, quiet.close]

theorem isSome_firstClose?_append {front : List Note} (called : (firstClose? front).isSome = true)
    (back : List Note) : (firstClose? (front ++ back)).isSome = true := by
  simp [firstClose?_append, called]

/-- Once a connection has been called to close, the end of what is written is known. -/
theorem ending_append_of_isSome {front : List Note} (called : (firstClose? front).isSome = true)
    (dialect : Wire.Dialect) (back : List Note) :
    ending dialect (front ++ back) = ending dialect front := by
  simp only [ending, firstClose?_append]
  obtain ⟨first, known⟩ := Option.isSome_iff_exists.mp called
  rw [known, Option.some_or]

theorem ending_of_unclosed {journal : List Note} (unclosed : firstClose? journal = none)
    (dialect : Wire.Dialect) : ending dialect journal = [] := by
  rw [ending, unclosed]
  cases dialect <;> rfl

theorem ending_of_first {journal : List Note} {code : UInt16}
    (first : firstClose? journal = some (code, .opened)) (dialect : Wire.Dialect) :
    ending dialect journal = (dialect.closeFrame? code).getD [] := by
  rw [ending, first]
  cases dialect <;> rfl

/-- No handshake has completed. -/
def Unopened (journal : List Note) : Prop :=
  ∀ note ∈ journal, ¬ note.completes

theorem Unopened.append {journal : List Note} (unopened : Unopened journal) {note : Note}
    (other : ¬ note.completes) : Unopened (journal ++ [note]) := by
  intro earlier mem
  rcases List.mem_append.mp mem with mem | mem
  · exact unopened earlier mem
  · rwa [List.mem_singleton.mp mem]

/-- A response opened the connection, and the frames of a journal came behind it. -/
def Opened (journal : List Note) (output : Octets) (details : Details) (response : Octets) : Prop :=
  .called (.complete details response) .connecting (.ok ()) ∈ journal ∧ Answers details response ∧
    output = response ++ frames details.dialect journal ++ ending details.dialect journal

/-- The output of a connection agrees with the journal. -/
inductive Account (journal : List Note) : Connection → Octets → Prop
  | silent (unopened : Unopened journal) (unsent : ∀ dialect, frames dialect journal = [])
    (unclosed : firstClose? journal = none) : Account journal .fresh []
  | speaking {connection : Connection} {done : Octets} {details : Details} {response : Octets}
    (state : connection.state = .opened) (goes : connection.Goes)
    (known : connection.details = some details) (unclosed : firstClose? journal = none)
    (opened : Opened journal (connection.output done) details response) :
    Account journal connection done
  | refused {connection : Connection} {done : Octets}
    (unopened : Unopened journal)
    (state : connection.state = .closing ∨ connection.state = .closed) (ended : connection.Ended)
    (total : connection.output done = [] ∨
      connection.output done = Utf8.encode Upgrade.PolicyProbe.response) :
    Account journal connection done
  | closing {connection : Connection} {done : Octets} {details : Details} {response : Octets}
    (state : connection.state = .closing ∧ (firstClose? journal).isSome = true ∨
      connection.state = .closed) (ended : connection.Ended)
    (opened : Opened journal (connection.output done) details response) :
    Account journal connection done

/-- Notes that have no part in what is written change nothing about it. -/
theorem Opened.note {journal : List Note} {output : Octets} {details : Details} {response : Octets}
    (opened : Opened journal output details response) {note : Note} (quiet : note.Quiet) :
    Opened (journal ++ [note]) output details response := by
  obtain ⟨completed, answers, total⟩ := opened
  refine ⟨List.mem_append_left _ completed, answers, ?_⟩
  rw [frames_note quiet, ending, firstClose?_note quiet]
  exact total

/-- A call to close that comes too late changes nothing about what is written. -/
theorem Opened.close_late {journal : List Note} {output : Octets} {details : Details}
    {response : Octets} (opened : Opened journal output details response) {state : State}
    (late : state = .closing ∧ (firstClose? journal).isSome = true ∨ state = .closed)
    (code : UInt16) :
    Opened (journal ++ [.called (.close code) state (.ok ())]) output details response := by
  obtain ⟨completed, answers, total⟩ := opened
  refine ⟨List.mem_append_left _ completed, answers, ?_⟩
  have same : ending details.dialect (journal ++ [.called (.close code) state (.ok ())]) =
      ending details.dialect journal := by
    rcases called : firstClose? journal with _ | first
    · obtain rfl : state = .closed := by simpa [called] using late
      rw [ending_of_unclosed called, ending, firstClose?_append, called]
      cases details.dialect <;> rfl
    · exact ending_append_of_isSome (by rw [called]; rfl) _ _
  rw [same, frames_append, total]
  simp [frames, Note.frame?]

namespace Account

variable {journal : List Note} {connection : Connection} {done : Octets}

theorem note (account : Account journal connection done) {note : Note} (quiet : note.Quiet) :
    Account (journal ++ [note]) connection done := by
  have same := firstClose?_note quiet journal
  cases account with
  | silent unopened unsent unclosed =>
    exact .silent (unopened.append quiet.opening)
      (fun dialect => (frames_note quiet dialect journal).trans (unsent dialect))
      (same.trans unclosed)
  | speaking state goes known unclosed opened =>
    exact .speaking state goes known (same.trans unclosed) (opened.note quiet)
  | refused unopened state ended total =>
    exact .refused (unopened.append quiet.opening) state ended total
  | closing state ended opened => exact .closing (by rwa [same]) ended (opened.note quiet)

/-- An open connection has been answered and not been called to close. -/
theorem of_opened (account : Account journal connection done) (state : connection.state = .opened) :
    connection.Goes ∧ firstClose? journal = none ∧ ∃ details response,
      connection.details = some details ∧
        Opened journal (connection.output done) details response := by
  cases account with
  | silent => cases state
  | speaking _ goes known unclosed opened => exact ⟨goes, unclosed, _, _, known, opened⟩
  | refused _ other => simp_all
  | closing other => simp_all

/-- A send on a connection that is not open is refused and leaves no trace. -/
theorem send_refused (account : Account journal connection done)
    (state : connection.state ≠ .opened) (opcode : Wire.Opcode) (payload : Octets) :
    Account (journal ++ [.sent opcode payload (connection.send opcode payload).2])
      (connection.send opcode payload).1 done := by
  obtain ⟨fault, refused⟩ : ∃ fault, connection.refusal? opcode payload = some fault := by
    unfold Connection.refusal?
    cases same : connection.state <;> simp_all
  rw [Connection.send_of_refusal?_eq_some refused]
  exact account.note ⟨fun _ => rfl, rfl, not_false⟩

/-- A send on an open connection is accepted, and its frame is written behind the others. -/
theorem send_accepted (account : Account journal connection done)
    (state : connection.state = .opened) (opcode : Wire.Opcode) (payload : Octets) :
    Account (journal ++ [.sent opcode payload (connection.send opcode payload).2])
      (connection.send opcode payload).1 done := by
  obtain ⟨goes, unclosed, details, response, known, completed, answers, total⟩ :=
    account.of_opened state
  have accepted : connection.refusal? opcode payload = none := by
    simp [Connection.refusal?, state, known, goes.attached]
  have frame : connection.frame? opcode payload = details.dialect.encode? opcode payload := by
    simp [Connection.frame?, known]
  have still : firstClose? (journal ++ [.sent opcode payload (.ok ())]) = none := by
    rw [firstClose?_append, unclosed]
    rfl
  have sent : frames details.dialect (journal ++ [.sent opcode payload (.ok ())]) =
      frames details.dialect journal ++ (details.dialect.encode? opcode payload).getD [] := by
    rw [frames_append]
    cases same : details.dialect.encode? opcode payload <;> simp [frames, Note.frame?, same]
  rw [ending_of_unclosed unclosed, List.append_nil] at total
  simp only [Connection.send, accepted, frame]
  cases same : details.dialect.encode? opcode payload with
  | none =>
    refine .speaking state goes known still ⟨List.mem_append_left _ completed, answers, ?_⟩
    rw [ending_of_unclosed still, sent, same, total]
    simp
  | some octets =>
    refine .speaking ?_ (goes.enqueue rfl) ?_ still ⟨List.mem_append_left _ completed, answers, ?_⟩
    · rwa [Connection.state_enqueue]
    · rwa [Connection.details_enqueue]
    · rw [ending_of_unclosed still, sent, same, goes.output_enqueue, total]
      simp [Outbound.octets]

theorem send (account : Account journal connection done) (opcode : Wire.Opcode)
    (payload : Octets) :
    Account (journal ++ [.sent opcode payload (connection.send opcode payload).2])
      (connection.send opcode payload).1 done := by
  by_cases state : connection.state = .opened
  · exact account.send_accepted state opcode payload
  · exact account.send_refused state opcode payload

/-- A connection that is called to close while it is open ends with the close frame. -/
theorem close_opened (account : Account journal connection done)
    (state : connection.state = .opened) (code : UInt16) :
    Account (journal ++ [.called (.close code) connection.state (.ok ())]) (connection.close code)
      done := by
  obtain ⟨goes, unclosed, details, response, known, completed, answers, total⟩ :=
    account.of_opened state
  have first : firstClose? (journal ++ [.called (.close code) connection.state (.ok ())]) =
      some (code, .opened) := by
    rw [firstClose?_append, unclosed, state]
    rfl
  have closed : connection.close code =
      (connection.withState .closing).enqueue (.close (details.dialect.closeFrame? code)) := by
    simp [Connection.close, Connection.isAvailable, state, Connection.closeFrame?, known]
  have still : (connection.withState .closing).Goes := ⟨goes.attached, goes.endless⟩
  rw [closed]
  refine .closing (.inl ⟨?_, ?_⟩) (still.ended_enqueue rfl)
    ⟨List.mem_append_left _ completed, answers, ?_⟩
  · rw [Connection.state_enqueue]
    rfl
  · rw [first]
    rfl
  · have frame : ending details.dialect
        (journal ++ [.called (.close code) connection.state (.ok ())]) =
          (details.dialect.closeFrame? code).getD [] :=
      ending_of_first first details.dialect
    have same : (connection.withState .closing).output done = connection.output done := rfl
    rw [still.output_enqueue, same, total, ending_of_unclosed unclosed, frame, frames_append]
    simp [frames, Note.frame?, Outbound.octets]

/-- A connection that has started to close stays as it is when it is called to close again. -/
theorem close_late (account : Account journal connection done)
    (state : connection.state = .closing ∨ connection.state = .closed) (code : UInt16) :
    Account (journal ++ [.called (.close code) connection.state (.ok ())]) (connection.close code)
      done := by
  have same : connection.close code = connection := by
    rcases state with same | same <;> simp [Connection.close, Connection.isAvailable, same]
  rw [same]
  cases account with
  | silent => rcases state with state | state <;> cases state
  | speaking opened => rcases state with state | state <;> rw [opened] at state <;> cases state
  | refused unopened _ ended total => exact .refused (unopened.append not_false) state ended total
  | closing known ended opened =>
    refine .closing (known.imp_left fun begun => ?_) ended (opened.close_late known code)
    exact ⟨begun.1, isSome_firstClose?_append begun.2 _⟩

theorem close (account : Account journal connection done) (code : UInt16) :
    Account (journal ++ [.called (.close code) connection.state (.ok ())]) (connection.close code)
      done := by
  cases account with
  | silent unopened unsent unclosed =>
    exact .refused (unopened.append not_false) (.inl rfl) (fun _ => rfl) (.inl rfl)
  | speaking state goes known unclosed opened =>
    exact (Account.speaking state goes known unclosed opened).close_opened state code
  | refused unopened state ended total =>
    exact (Account.refused unopened state ended total).close_late state code
  | closing state ended opened =>
    exact (Account.closing state ended opened).close_late (state.imp And.left id) code

/-- The end of a session ends what is written. -/
theorem finish (account : Account journal connection done) :
    Account (journal ++ [.called .finish connection.state (.ok ())]) connection.finish done := by
  have quiet : (Note.called .finish connection.state (.ok ())).Quiet := ⟨fun _ => rfl, rfl, not_false⟩
  cases account with
  | silent unopened unsent unclosed =>
    exact .refused (unopened.append quiet.opening) (.inr rfl) (fun _ => rfl) (.inl rfl)
  | speaking state goes known unclosed opened =>
    have same : connection.finish.output done = connection.output done :=
      (goes.output_enqueue (.close none) done).trans (List.append_nil _)
    exact .closing (.inr rfl) (goes.ended_enqueue rfl) (same ▸ opened.note quiet)
  | refused unopened state ended total =>
    have same : connection.finish.output done = connection.output done :=
      ended.output_enqueue (.close none) done
    exact .refused (unopened.append quiet.opening) (.inr rfl) (ended.enqueue _) (same ▸ total)
  | closing state ended opened =>
    have same : connection.finish.output done = connection.output done :=
      ended.output_enqueue (.close none) done
    exact .closing (.inr rfl) (ended.enqueue _) (same ▸ opened.note quiet)

/-- The policy is all that is written to whoever asks for it. -/
theorem servePolicy (account : Account journal .fresh done) :
    Account (journal ++ [.called .servePolicy .connecting (.ok ())]) Connection.fresh.servePolicy
      done := by
  cases account with
  | silent unopened unsent unclosed =>
    exact .refused (unopened.append not_false) (.inl rfl) (fun _ => rfl) (.inr (List.append_nil _))
  | speaking state => cases state
  | refused _ state => rcases state with state | state <;> cases state
  | closing state => rcases state with ⟨state, -⟩ | state <;> cases state

/-- The response to a handshake is written first. -/
theorem complete (account : Account journal .fresh done) {details : Details} {response : Octets}
    (answers : Answers details response) :
    Account (journal ++ [.called (.complete details response) .connecting (.ok ())])
      (Connection.fresh.complete details response).1 done := by
  cases account with
  | silent unopened unsent unclosed =>
    have still : firstClose?
        (journal ++ [.called (.complete details response) .connecting (.ok ())]) = none := by
      rw [firstClose?_append, unclosed]
      rfl
    refine .speaking rfl ⟨rfl, rfl⟩ rfl still
      ⟨List.mem_append_right _ (List.mem_singleton.mpr rfl), answers, ?_⟩
    rw [ending_of_unclosed still, frames_append, unsent]
    simp [Connection.complete_fresh, Connection.output, Connection.written, frames, Note.frame?]
  | speaking state => cases state
  | refused _ state => rcases state with state | state <;> cases state
  | closing state => rcases state with ⟨state, -⟩ | state <;> cases state

/-- What the writer does changes nothing about the output. -/
theorem writer (account : Account journal connection done) {later : Connection} {more : Octets}
    (touched : connection ≠ .fresh) (state : later.state = connection.state)
    (details : later.details = connection.details)
    (output : later.output (done ++ more) = connection.output done)
    (goes : connection.Goes → later.Goes) (ended : connection.Ended → later.Ended) :
    Account journal later (done ++ more) := by
  cases account with
  | silent => exact absurd rfl touched
  | speaking same still known unclosed opened =>
    exact .speaking (state.trans same) (goes still) (details.trans known) unclosed (output ▸ opened)
  | refused unopened same last total =>
    exact .refused unopened (state ▸ same) (ended last) (output ▸ total)
  | closing same last opened => exact .closing (state ▸ same) (ended last) (output ▸ opened)

/-- The writer writes an item that is not the end. -/
theorem write_data (account : Account journal connection done) {octets : Octets}
    {rest : List Outbound} (queued : connection.queue = .data octets :: rest) :
    Account journal ⟨connection.state, connection.details, connection.attached, rest⟩
      (done ++ octets) := by
  have first : Connection.written connection.queue =
      (octets ++ (Connection.written rest).1, (Connection.written rest).2) := by
    rw [queued]
    rfl
  refine account.writer (Connection.ne_fresh_of_queue queued) rfl rfl ?_ ?_ ?_
  · rw [Connection.output, Connection.output, first, List.append_assoc]
  · intro goes
    refine ⟨goes.attached, ?_⟩
    have endless := goes.endless
    rwa [first] at endless
  · intro ended attached
    have last := ended attached
    rwa [first] at last

/-- The writer writes the end and leaves. -/
theorem write_close (account : Account journal connection done) {frame : Option Octets}
    {rest : List Outbound} (queued : connection.queue = .close frame :: rest) :
    Account journal connection.detach (done ++ frame.getD []) := by
  have only : Connection.written connection.queue = (frame.getD [], true) := by
    rw [queued]
    rfl
  refine account.writer (Connection.ne_fresh_of_queue queued) rfl rfl ?_ ?_ ?_
  · rw [Connection.output, Connection.output, only]
    exact List.append_nil _
  · intro goes
    have endless := goes.endless
    rw [only] at endless
    cases endless
  · intro ended attached
    cases attached

/-- The output is nothing or the policy until a handshake has completed. -/
theorem shape (account : Account journal connection done) :
    Unopened journal ∧ (connection.output done = [] ∨
        connection.output done = Utf8.encode Upgrade.PolicyProbe.response) ∨
      ∃ details response, Opened journal (connection.output done) details response := by
  cases account with
  | silent unopened => exact .inl ⟨unopened, .inl rfl⟩
  | speaking state goes known unclosed opened => exact .inr ⟨_, _, opened⟩
  | refused unopened state ended total => exact .inl ⟨unopened, total⟩
  | closing state ended opened => exact .inr ⟨_, _, opened⟩

end Account

theorem Move.took_notMem_notes (connection : Connection) (move : Move) (task : Task)
    (state : State) : .took task state ∉ move.notes connection := by
  obtain ⟨call, event, left⟩ := move
  cases call <;> simp [notes]

/-- What a call needs: only a fresh connection is answered, by the policy or by the response. -/
def Call.Allowed (connection : Connection) : Call → Prop
  | .servePolicy => connection = .fresh
  | .complete details response => connection = .fresh ∧ Answers details response
  | _ => True

/-- The call of a task has what it needs. -/
theorem Standing.allowed {stage : Stage} {connection : Connection} {task : Task} {rest : List Task}
    (standing : Standing stage connection (task :: rest)) :
    ∀ call ∈ (task.move connection rest).call, call.Allowed connection := by
  cases task with
  | servePolicy =>
    rintro call ⟨⟩
    cases standing with
    | fresh => rfl
    | refused silent left touched => simp at left
    | opened heard state later => cases later
    | failed heard state last => cases last
  | complete details response =>
    cases standing with
    | fresh early =>
      cases early with
      | complete answers later =>
        rintro call ⟨⟩
        exact ⟨rfl, answers⟩
      | last last => cases last
    | refused silent left touched => simp at left
    | opened heard state later => cases later
    | failed heard state last => cases last
  | deliver message =>
    simp only [Task.move]
    split
    · cases message <;> rintro call ⟨⟩
      trivial
    · rintro call ⟨⟩
  | report fault => rintro call ⟨⟩
  | wait phase => rintro call ⟨⟩
  | close code => rintro call ⟨⟩; trivial
  | finish => rintro call ⟨⟩; trivial

namespace Account

variable {journal : List Note} {connection : Connection} {done : Octets}

theorem perform (account : Account journal connection done) {call : Call}
    (allowed : call.Allowed connection) :
    Account (journal ++ [.called call connection.state (connection.perform call).2])
      (connection.perform call).1 done := by
  cases call with
  | servePolicy =>
    obtain rfl : connection = .fresh := allowed
    exact account.servePolicy
  | complete details response =>
    obtain ⟨rfl, answers⟩ : connection = .fresh ∧ Answers details response := allowed
    exact account.complete answers
  | close code => exact account.close code
  | finish => exact account.finish

end Account

namespace Moment

variable {Memory : Type}

/-- The output of the connection agrees with the journal, and a close message of the peer that came
while the connection was open is the first call to close. -/
structure Accounted (moment : Moment Memory) : Prop where
  account : Account moment.journal moment.connection moment.written
  answered : ∀ code?, .took (.deliver (.close code?)) .opened ∈ moment.journal →
    firstClose? moment.journal = some (code?.getD Wire.CloseCode.normal, .opened)

theorem accounted_start (memory : Memory) : (start memory).Accounted where
  account := .silent (fun _ mem => absurd mem List.not_mem_nil) (fun _ => rfl) rfl
  answered := nofun

namespace Accounted

variable {moment : Moment Memory}

/-- Notes behind others, none of which takes up a close message. -/
theorem answered_append (accounted : moment.Accounted) {notes : List Note}
    (other : ∀ task state, .took task state ∉ notes) (code? : Option UInt16)
    (took : .took (.deliver (.close code?)) .opened ∈ moment.journal ++ notes) :
    firstClose? (moment.journal ++ notes) =
      some (code?.getD Wire.CloseCode.normal, .opened) := by
  rcases List.mem_append.mp took with took | took
  · rw [firstClose?_append, accounted.answered code? took, Option.some_or]
  · exact absurd took (other _ _)

theorem send (accounted : moment.Accounted) (opcode : Wire.Opcode) (payload : Octets) :
    (moment.send opcode payload).Accounted where
  account := accounted.account.send opcode payload
  answered := accounted.answered_append (by simp)

theorem close (accounted : moment.Accounted) (code : UInt16) :
    (moment.call (.close code)).Accounted where
  account := accounted.account.close code
  answered := accounted.answered_append (by simp)

theorem turnTo (accounted : moment.Accounted) (activity : Activity Memory) :
    (moment.turnTo activity).Accounted :=
  ⟨accounted.account, accounted.answered⟩

theorem remember (accounted : moment.Accounted) (memory : Memory) :
    (⟨moment.connection, memory, moment.activity, moment.written, moment.journal⟩ :
      Moment Memory).Accounted :=
  ⟨accounted.account, accounted.answered⟩

theorem react (accounted : moment.Accounted) (tasks : List Task) (reaction : Reaction Memory) :
    (moment.react tasks reaction).Accounted := by
  cases reaction with
  | done memory => exact (accounted.remember memory).turnTo _
  | inspect next => exact accounted.turnTo _
  | send opcode payload next => exact (accounted.send opcode payload).turnTo _
  | close code next => exact (accounted.close code).turnTo _

theorem arrive (accounted : moment.Accounted) (settings : Settings) (arrival : Arrival) :
    (moment.arrive settings arrival).Accounted := by
  unfold Moment.arrive
  split
  · exact accounted.turnTo _
  · exact accounted

theorem write (accounted : moment.Accounted) : moment.write.Accounted := by
  unfold Moment.write
  split
  · exact accounted
  · rename_i queued
    exact ⟨accounted.account.write_data queued, accounted.answered⟩
  · rename_i queued
    exact ⟨accounted.account.write_close queued, accounted.answered⟩

/-- The session follows a move whose call has what it needs. -/
theorem account_follow (moment : Moment Memory)
    (account : Account moment.journal moment.connection moment.written) {move : Move}
    (allowed : ∀ call ∈ move.call, call.Allowed moment.connection) (handler : Handler Memory)
    (client : Nat) :
    Account (moment.follow handler client move).journal
      (moment.follow handler client move).connection
      (moment.follow handler client move).written := by
  obtain ⟨call, event, left⟩ := move
  have called : Account (moment.journal ++ Move.notes moment.connection ⟨call, event, left⟩)
      (moment.connection.follow ⟨call, event, left⟩) moment.written := by
    cases call with
    | none => simpa [Move.notes, Connection.follow] using account
    | some call => exact account.perform (allowed call rfl)
  cases event with
  | none => exact called
  | some event => exact called.note ⟨fun _ => rfl, rfl, not_false⟩

/-- A close message that is taken up while the connection is open is the first call to close. -/
theorem firstClose?_of_deliver (accounted : moment.Accounted)
    (state : moment.connection.state = .opened) (code? : Option UInt16) (rest : List Task)
    (before behind : List Note) (quiet : firstClose? before = none) :
    firstClose? (moment.journal ++ before ++
        (Task.move moment.connection rest (.deliver (.close code?))).notes moment.connection ++
          behind) = some (code?.getD Wire.CloseCode.normal, .opened) := by
  have available : moment.connection.isAvailable = true := by
    simp [Connection.isAvailable, state]
  have called :
      (Task.move moment.connection rest (.deliver (.close code?))).notes moment.connection =
        [.called (.close (code?.getD Wire.CloseCode.normal)) .opened (.ok ())] := by
    simp [Task.move, available, Task.delivery, Move.notes, Connection.perform, state]
  obtain ⟨-, unclosed, -⟩ := accounted.account.of_opened state
  rw [called, firstClose?_append, firstClose?_append, firstClose?_append, unclosed, quiet]
  rfl

/-- The session takes up a task. -/
theorem take (accounted : moment.Accounted) {stage : Stage} {task : Task} {rest : List Task}
    (standing : Standing stage moment.connection (task :: rest)) (handler : Handler Memory)
    (client : Nat) : (moment.take handler client task rest).Accounted := by
  unfold Moment.take
  split
  · exact accounted.turnTo _
  · have took : Account (moment.journal ++ [.took task moment.connection.state]) moment.connection
        moment.written := accounted.account.note ⟨fun _ => rfl, rfl, not_false⟩
    refine ⟨account_follow (moment.note _) took standing.allowed handler client, ?_⟩
    intro code? mem
    rw [journal_follow] at mem ⊢
    obtain (mem | mem) | mem := by simpa only [List.mem_append] using mem
    · rcases List.mem_append.mp mem with earlier | now
      · change firstClose? (moment.journal ++ _ ++ _ ++ _) = _
        rw [firstClose?_append, firstClose?_append, firstClose?_append,
          accounted.answered code? earlier]
        rfl
      · obtain ⟨taken, state⟩ : Task.deliver (.close code?) = task ∧
            State.opened = moment.connection.state := by simpa using now
        subst taken
        exact accounted.firstClose?_of_deliver state.symm code? rest _ _ rfl
    · exact absurd mem (Move.took_notMem_notes _ _ _ _)
    · obtain ⟨event, -, same⟩ := List.mem_map.mp mem
      cases same

theorem proceed (accounted : moment.Accounted) {stage : Stage}
    (disciplined : moment.Disciplined stage) (handler : Handler Memory) (client : Nat) :
    (moment.proceed handler client).Accounted := by
  unfold Moment.proceed
  split
  · exact accounted
  · exact accounted.turnTo _
  · rename_i works
    have standing := disciplined.standing
    rw [works] at standing
    exact accounted.take standing handler client
  · exact accounted.react _ _

/-- Every turn but a failing write keeps the account. -/
theorem turn (accounted : moment.Accounted) {stage : Stage} (disciplined : moment.Disciplined stage)
    (handler : Handler Memory) (settings : Settings) (client : Nat) {turn : Turn Memory}
    (writes : ∀ count, turn ≠ .failWrite count) :
    (moment.turn handler settings client turn).Accounted := by
  cases turn with
  | arrive arrival => exact accounted.arrive settings arrival
  | proceed => exact accounted.proceed disciplined handler client
  | send opcode payload =>
    simp only [Moment.turn]
    split
    · exact accounted
    · exact accounted.send opcode payload
  | close code =>
    simp only [Moment.turn]
    split
    · exact accounted
    · exact accounted.close code
  | remember memory => exact accounted.remember memory
  | write => exact accounted.write
  | failWrite count => exact absurd rfl (writes count)

/-- Every run in which no write fails keeps the account. -/
theorem run (accounted : moment.Accounted) {stage : Stage} (disciplined : moment.Disciplined stage)
    (handler : Handler Memory) (settings : Settings) (client : Nat) {turns : List (Turn Memory)}
    (writes : ∀ count, .failWrite count ∉ turns) :
    (moment.run handler settings client turns).Accounted := by
  induction turns generalizing moment stage with
  | nil => exact accounted
  | cons next rest inductionHypothesis =>
    have kept : (moment.turn handler settings client next).Accounted := by
      refine accounted.turn disciplined handler settings client fun count same => writes count ?_
      rw [same]
      exact List.mem_cons_self
    obtain ⟨later, goesOn⟩ := disciplined.turn handler settings client next
    exact inductionHypothesis kept goesOn fun count mem => writes count (List.mem_cons_of_mem _ mem)

end Accounted

/-- What a run has written is the beginning of a whole transmission, and all of it once the writer
has caught up. Until a handshake has completed that is nothing or the policy, and then the response,
the frames of all accepted sends, and what the first call to close writes. -/
structure Transmission (moment : Moment Memory) (total : Octets) : Prop where
  written : moment.written <+: total
  caughtUp : moment.connection.queue = [] → moment.written = total
  shape : Unopened moment.journal ∧
      (total = [] ∨ total = Utf8.encode Upgrade.PolicyProbe.response) ∨
    ∃ details response, Opened moment.journal total details response
  answered : ∀ code?, .took (.deliver (.close code?)) .opened ∈ moment.journal →
    firstClose? moment.journal = some (code?.getD Wire.CloseCode.normal, .opened)

theorem Accounted.transmission {moment : Moment Memory} (accounted : moment.Accounted) :
    moment.Transmission (moment.connection.output moment.written) where
  written := List.prefix_append _ _
  caughtUp := by
    intro empty
    rw [Connection.output, empty]
    exact (List.append_nil _).symm
  shape := accounted.account.shape
  answered := accounted.answered

/-- In every run in which no write fails, what the writer writes is nothing, the policy, or the
response to the handshake, the frames of all accepted sends in order, and at most one close frame,
which carries the code of the first call to close. A writer that goes on writes all of it. -/
theorem exists_transmission (handler : Handler Memory) (settings : Settings) (client : Nat)
    (memory : Memory) {turns : List (Turn Memory)} (writes : ∀ count, .failWrite count ∉ turns) :
    let moment := (start memory).run handler settings client turns
    ∃ total, moment.Transmission total ∧
      ∃ count, let last := moment.run handler settings client (List.replicate count .write)
        last.connection.queue = [] ∧ last.written = total ∧ last.journal = moment.journal := by
  intro moment
  have accounted : moment.Accounted :=
    (accounted_start memory).run (disciplined_start memory) handler settings client writes
  refine ⟨_, accounted.transmission, ?_⟩
  obtain ⟨count, flushed⟩ := exists_writes handler settings client moment.connection moment.memory
    moment.activity moment.written moment.journal
  refine ⟨count, ?_⟩
  intro last
  rw [show last = _ from flushed]
  exact ⟨rfl, rfl, rfl⟩

/-- A handler that greets whoever opens a connection. -/
def greeter : Handler Unit := fun _ _ event =>
  match event with
  | .opened => .send .text (Utf8.encode "hi") fun _ => .done ()
  | _ => .done ()

/-- A client shakes hands and is greeted, gets two octets from someone else, and closes. -/
def greeting : List (Turn Unit) :=
  [.arrive (.data (Utf8.encode ("GET / HTTP/1.1\r\nSec-WebSocket-Version: 13\r\n" ++
      "Sec-WebSocket-Key: dGhlIHNhbXBsZSBub25jZQ==\r\n\r\n"))),
    .proceed, .proceed, .proceed, .proceed, .write, .send .binary [1, 2],
    .arrive (.data (Wire.Frame.encodeMasked .close [3, 233] ⟨1, 2, 3, 4⟩)),
    .proceed, .write, .proceed, .proceed, .proceed, .write, .write]

/-- The response, the greeting, the two octets and the close frame are all that is written. -/
theorem exists_transmission_greeting :
    (∀ count, .failWrite count ∉ greeting) ∧
      let moment := (start ()).run greeter ⟨"ws", [], 100⟩ 0 greeting
      moment.connection.queue = [] ∧
        ∃ total, moment.Transmission total ∧
          (∃ count, let last := moment.run greeter ⟨"ws", [], 100⟩ 0 (List.replicate count .write)
            last.connection.queue = [] ∧ last.written = total ∧ last.journal = moment.journal) ∧
          total = Utf8.encode ("HTTP/1.1 101 Switching Protocols\r\nUpgrade: websocket\r\n" ++
              "Connection: Upgrade\r\n" ++
              "Sec-WebSocket-Accept: s3pPLMBiTxaQ9kYGzzhZRbK+xOo=\r\n\r\n") ++
            [0x81, 2, 104, 105] ++ [0x82, 2, 1, 2] ++ [0x88, 2, 3, 233] := by
  have writes : ∀ count, .failWrite count ∉ greeting := by simp [greeting]
  have caughtUp :
      ((start ()).run greeter ⟨"ws", [], 100⟩ 0 greeting).connection.queue.isEmpty = true := by
    decide +kernel
  have written : ((start ()).run greeter ⟨"ws", [], 100⟩ 0 greeting).written =
      Utf8.encode ("HTTP/1.1 101 Switching Protocols\r\nUpgrade: websocket\r\n" ++
          "Connection: Upgrade\r\n" ++
          "Sec-WebSocket-Accept: s3pPLMBiTxaQ9kYGzzhZRbK+xOo=\r\n\r\n") ++
        [0x81, 2, 104, 105] ++ [0x82, 2, 1, 2] ++ [0x88, 2, 3, 233] := by
    decide +kernel
  have empty := List.isEmpty_iff.mp caughtUp
  obtain ⟨total, transmission, goesOn⟩ := exists_transmission greeter ⟨"ws", [], 100⟩ 0 () writes
  have all := (transmission.caughtUp empty).symm.trans written
  exact ⟨writes, empty, total, transmission, goesOn, all⟩

end Moment

end CashHerald.Session
