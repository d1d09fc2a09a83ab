import CashHerald.Session.Connection
import Mathlib

/-!
The handle of an open connection in other hands: payloads are sent and closes are called in any
order, and the receiver of what is queued may go away at any point. Main statement: the connection is
open until the first close and closing from then on; what is queued as long as the receiver is there
are the frames of the sends in front of the first close and one end; and a send is refused exactly if
the connection is closing or nobody is there to receive its frame.
-/

namespace CashHerald.Session

/-- What is done with a handle: a payload is sent, the connection is closed, or the receiver of what
is queued leaves. -/
inductive Deed where
  | text (content : String)
  | binary (content : Octets)
  | ping (content : Octets)
  | pong (content : Octets)
  | close (code : UInt16)
  | leave
  deriving DecidableEq, Repr

namespace Deed

/-- The opcode and the payload that a deed sends. -/
def sent? : Deed → Option (Wire.Opcode × Octets)
  | .text content => some (.text, Utf8.encode content)
  | .binary content => some (.binary, content)
  | .ping content => some (.ping, content)
  | .pong content => some (.pong, content)
  | .close _ => none
  | .leave => none

/-- The code of a close. -/
def code? : Deed → Option UInt16
  | .close code => some code
  | _ => none

/-- The frame of what a deed sends, if the dialect has one. -/
def frame? (dialect : Wire.Dialect) (deed : Deed) : Option Octets :=
  deed.sent?.bind fun (opcode, payload) => dialect.encode? opcode payload

/-- The code of the first close. -/
def firstCode? (deeds : List Deed) : Option UInt16 :=
  deeds.findSome? code?

/-- What deeds queue for a receiver that stays: the frames of the sends in front of the first close,
in order, and behind them one end with the close frame for its code. -/
def queued (dialect : Wire.Dialect) (deeds : List Deed) : List Outbound :=
  ((deeds.takeWhile fun deed => deed.code?.isNone).filterMap (frame? dialect)).map .data ++
    ((firstCode? deeds).map fun code => .close (dialect.closeFrame? code)).toList

section Queued

variable {dialect : Wire.Dialect} {deeds : List Deed}

theorem firstCode?_concat (deeds : List Deed) (deed : Deed) :
    firstCode? (deeds ++ [deed]) = (firstCode? deeds).or deed.code? := by
  simp only [firstCode?, List.findSome?_append, List.findSome?_singleton]

section Sent

variable {deed : Deed} {opcode : Wire.Opcode} {payload : Octets}

theorem code?_of_sent (sent : deed.sent? = some (opcode, payload)) : deed.code? = none := by
  cases deed <;> first | rfl | cases sent

theorem frame?_of_sent (sent : deed.sent? = some (opcode, payload)) :
    deed.frame? dialect = dialect.encode? opcode payload := by
  rw [frame?, sent]
  rfl

theorem firstCode?_concat_of_sent (sent : deed.sent? = some (opcode, payload)) :
    firstCode? (deeds ++ [deed]) = firstCode? deeds := by
  rw [firstCode?_concat, code?_of_sent sent, Option.or_none]

theorem leave_mem_concat_of_sent (sent : deed.sent? = some (opcode, payload)) (deeds : List Deed) :
    .leave ∈ deeds ++ [deed] ↔ .leave ∈ deeds := by
  have other : deed ≠ .leave := by
    rintro rfl
    cases sent
  simp [other.symm]

end Sent

/-- Without a close all sends are queued. -/
theorem queued_of_unclosed (unclosed : firstCode? deeds = none) :
    queued dialect deeds = (deeds.filterMap (frame? dialect)).map .data := by
  have sends : ∀ deed ∈ deeds, deed.code?.isNone = true := by
    simpa [firstCode?] using unclosed
  rw [queued, unclosed, List.takeWhile_eq_self_iff.mpr sends]
  exact List.append_nil _

/-- Behind the first close nothing is queued any more. -/
theorem queued_concat_of_closed (closed : (firstCode? deeds).isSome = true) (deed : Deed) :
    queued dialect (deeds ++ [deed]) = queued dialect deeds := by
  obtain ⟨code, first⟩ := Option.isSome_iff_exists.mp closed
  have ends : ¬ ∀ deed ∈ deeds, deed.code?.isNone = true := by
    intro sends
    have unclosed : firstCode? deeds = none := by simpa [firstCode?] using sends
    rw [unclosed] at first
    cases first
  have whole : (deeds.takeWhile fun deed => deed.code?.isNone).length ≠ deeds.length := by
    intro same
    exact ends (List.takeWhile_eq_self_iff.mp
      ((List.takeWhile_prefix _).eq_of_length same))
  rw [queued, queued, firstCode?_concat, first, List.takeWhile_append, if_neg whole, Option.some_or]

/-- In front of the first close every frame is queued behind the others. -/
theorem queued_concat_of_send (unclosed : firstCode? deeds = none) {deed : Deed}
    (send : deed.code? = none) :
    queued dialect (deeds ++ [deed]) =
      queued dialect deeds ++ (deed.frame? dialect).toList.map .data := by
  have still : firstCode? (deeds ++ [deed]) = none := by
    rw [firstCode?_concat, unclosed, send, Option.none_or]
  rw [queued_of_unclosed still, queued_of_unclosed unclosed, List.filterMap_append, List.map_append]
  cases framed : deed.frame? dialect <;> simp [framed]

/-- The first close is queued behind all frames. -/
theorem queued_concat_of_close (unclosed : firstCode? deeds = none) (code : UInt16) :
    queued dialect (deeds ++ [.close code]) =
      queued dialect deeds ++ [.close (dialect.closeFrame? code)] := by
  have sends : ∀ deed ∈ deeds, deed.code?.isNone = true := by
    simpa [firstCode?] using unclosed
  rw [queued_of_unclosed unclosed, queued, firstCode?_concat, unclosed,
    List.takeWhile_append_of_pos sends]
  simp [code?]

end Queued

end Deed

namespace Connection

open Deed (firstCode? queued)

/-- The connection after a deed, and how the deed went. -/
def does (connection : Connection) : Deed → Connection × Except Wire.Fault Unit
  | .text content => connection.sendText content
  | .binary content => connection.send .binary content
  | .ping content => connection.send .ping content
  | .pong content => connection.send .pong content
  | .close code => (connection.close code, .ok ())
  | .leave => (connection.detach, .ok ())

/-- The connection after some deeds. -/
def doesAll (connection : Connection) (deeds : List Deed) : Connection :=
  deeds.foldl (fun later deed => (later.does deed).1) connection

theorem doesAll_concat (connection : Connection) (deeds : List Deed) (deed : Deed) :
    connection.doesAll (deeds ++ [deed]) = ((connection.doesAll deeds).does deed).1 := by
  simp only [doesAll, List.foldl_append, List.foldl_cons, List.foldl_nil]

@[simp] theorem attached_close (connection : Connection) (code : UInt16) :
    (connection.close code).attached = connection.attached := by
  unfold close enqueue withState
  split
  · split
    · rename_i attached
      exact attached.symm
    · rfl
  · rfl

/-- A deed that sends does nothing else. -/
theorem does_of_sent {deed : Deed} {opcode : Wire.Opcode} {payload : Octets}
    (sent : deed.sent? = some (opcode, payload)) (connection : Connection) :
    connection.does deed = connection.send opcode payload := by
  cases deed <;> cases sent <;> rfl

/-- How an open connection stands after some deeds. -/
structure Stands (dialect : Wire.Dialect) (deeds : List Deed) (connection : Connection) : Prop where
  details : connection.details = some (.plain dialect)
  state : connection.state = if (firstCode? deeds).isSome then .closing else .opened
  attached : connection.attached = decide (.leave ∉ deeds)
  queue : connection.queue = if .leave ∈ deeds then [] else queued dialect deeds

namespace Stands

variable {dialect : Wire.Dialect} {deeds : List Deed} {connection : Connection}

theorem opened (dialect : Wire.Dialect) : Stands dialect [] (.opened dialect) :=
  ⟨rfl, rfl, rfl, rfl⟩

theorem closing_iff (stands : Stands dialect deeds connection) :
    connection.state = .closing ↔ (firstCode? deeds).isSome = true := by
  rw [stands.state]
  rcases firstCode? deeds with _ | code <;> simp

theorem opened_iff (stands : Stands dialect deeds connection) :
    connection.state = .opened ↔ firstCode? deeds = none := by
  rw [stands.state]
  rcases firstCode? deeds with _ | code <;> simp

theorem frame?_eq (stands : Stands dialect deeds connection) (opcode : Wire.Opcode)
    (payload : Octets) : connection.frame? opcode payload = dialect.encode? opcode payload := by
  rw [frame?, stands.details]
  rfl

/-- A send is refused behind the first close, and where nobody is there to receive its frame. -/
theorem send_refused (stands : Stands dialect deeds connection) {opcode : Wire.Opcode}
    {payload : Octets} (refused : (firstCode? deeds).isSome = true ∨
      ((dialect.encode? opcode payload).isSome = true ∧ .leave ∈ deeds)) :
    connection.send opcode payload = (connection, .error .closed) := by
  apply send_of_refusal?_eq_some
  have state := stands.state
  rcases closed : firstCode? deeds with _ | code
  · obtain ⟨framed, left⟩ := refused.resolve_left (by simp [closed])
    have lost : connection.attached = false := by simp [stands.attached, left]
    rw [closed] at state
    simp [refusal?, state, stands.details, stands.frame?_eq, framed, lost]
  · rw [closed] at state
    simp [refusal?, state]

/-- Any other send is accepted, and its frame is queued if there is one. -/
theorem send_accepted (stands : Stands dialect deeds connection) {opcode : Wire.Opcode}
    {payload : Octets} (unclosed : firstCode? deeds = none)
    (received : dialect.encode? opcode payload = none ∨ .leave ∉ deeds) :
    connection.send opcode payload =
      (match dialect.encode? opcode payload with
        | none => connection
        | some frame => connection.enqueue (.data frame), .ok ()) := by
  have accepted : connection.refusal? opcode payload = none := by
    have state := stands.state
    rw [unclosed] at state
    have free : ¬((connection.frame? opcode payload).isSome = true ∧ connection.attached = false) := by
      rintro ⟨framed, lost⟩
      rw [stands.frame?_eq] at framed
      rcases received with unframed | stays
      · simp [unframed] at framed
      · simp [stands.attached, stays] at lost
    simp [refusal?, state, stands.details, free]
  simp only [send, accepted, stands.frame?_eq]
  cases dialect.encode? opcode payload <;> rfl

section Sent

variable {deed : Deed} {opcode : Wire.Opcode} {payload : Octets}

/-- A send that is refused, or has no frame, leaves the connection as it is. -/
theorem ignored (stands : Stands dialect deeds connection)
    (sent : deed.sent? = some (opcode, payload))
    (same : queued dialect (deeds ++ [deed]) = queued dialect deeds ∨ .leave ∈ deeds) :
    Stands dialect (deeds ++ [deed]) connection := by
  have leaves := Deed.leave_mem_concat_of_sent sent deeds
  refine ⟨stands.details, ?_, ?_, ?_⟩
  · rw [Deed.firstCode?_concat_of_sent sent, stands.state]
  · simp only [leaves, stands.attached]
  · rw [stands.queue]
    rcases same with same | left
    · simp only [leaves, same]
    · rw [if_pos left, if_pos (leaves.mpr left)]

/-- The frame of a send that is accepted is queued behind the others. -/
theorem framed (stands : Stands dialect deeds connection)
    (sent : deed.sent? = some (opcode, payload)) (unclosed : firstCode? deeds = none)
    (stays : .leave ∉ deeds) {frame : Octets}
    (encoded : dialect.encode? opcode payload = some frame) :
    Stands dialect (deeds ++ [deed]) (connection.enqueue (.data frame)) := by
  have leaves := Deed.leave_mem_concat_of_sent sent deeds
  have attached : connection.attached = true := by simp [stands.attached, stays]
  rw [enqueue, if_pos attached]
  refine ⟨stands.details, ?_, ?_, ?_⟩
  · rw [Deed.firstCode?_concat_of_sent sent]
    exact stands.state
  · simp [leaves, stays]
  · have queue := stands.queue
    rw [if_neg stays] at queue
    rw [if_neg (leaves.not.mpr stays),
      Deed.queued_concat_of_send unclosed (Deed.code?_of_sent sent), Deed.frame?_of_sent sent,
      encoded, queue]
    rfl

/-- A deed that sends, whether it is refused or accepted. -/
theorem sent (stands : Stands dialect deeds connection)
    (sent : deed.sent? = some (opcode, payload)) :
    Stands dialect (deeds ++ [deed]) (connection.send opcode payload).1 := by
  -- Only a frame in front of the first close that somebody receives makes a difference.
  rcases closed : firstCode? deeds with _ | code
  · rcases encoded : dialect.encode? opcode payload with _ | frame
    · have same : queued dialect (deeds ++ [deed]) = queued dialect deeds := by
        rw [Deed.queued_concat_of_send closed (Deed.code?_of_sent sent), Deed.frame?_of_sent sent,
          encoded]
        exact List.append_nil _
      rw [stands.send_accepted closed (.inl encoded), encoded]
      exact stands.ignored sent (.inl same)
    · by_cases left : .leave ∈ deeds
      · rw [stands.send_refused (.inr ⟨by rw [encoded]; rfl, left⟩)]
        exact stands.ignored sent (.inr left)
      · rw [stands.send_accepted closed (.inr left), encoded]
        exact stands.framed sent closed left encoded
  · have shut : (firstCode? deeds).isSome = true := by rw [closed]; rfl
    rw [stands.send_refused (.inl shut)]
    exact stands.ignored sent (.inl (Deed.queued_concat_of_closed shut deed))

end Sent

/-- Behind the first close another one does nothing. -/
theorem close_late (stands : Stands dialect deeds connection)
    (shut : (firstCode? deeds).isSome = true) (code : UInt16) : connection.close code = connection := by
  have state := stands.state
  rw [if_pos shut] at state
  simp [close, isAvailable, state]

/-- The first close queues an end, if there is a receiver. -/
theorem closed (stands : Stands dialect deeds connection) (code : UInt16) :
    Stands dialect (deeds ++ [.close code]) (connection.close code) := by
  have stays : .leave ∈ deeds ++ [.close code] ↔ .leave ∈ deeds := by simp
  have shut : (firstCode? (deeds ++ [.close code])).isSome = true := by
    simp [Deed.firstCode?_concat, Deed.code?]
  refine ⟨(details_close connection code).trans stands.details, ?_, ?_, ?_⟩
  · rw [if_pos shut, state_close]
    split
    · rfl
    · rename_i unavailable
      rw [stands.state]
      split
      · rfl
      · rename_i unclosed
        exact absurd (by simp [isAvailable, stands.state, unclosed]) unavailable
  · rw [attached_close, stands.attached]
    simp only [stays]
  · rcases earlier : firstCode? deeds with _ | first
    · have available : connection.isAvailable = true := by
        simp [isAvailable, stands.state, earlier]
      have frame : connection.closeFrame? code = dialect.closeFrame? code := by
        rw [closeFrame?, stands.details]
        rfl
      rw [close, if_pos available, frame, Deed.queued_concat_of_close earlier]
      have queue := stands.queue
      have attached := stands.attached
      by_cases left : .leave ∈ deeds
      · rw [if_pos left] at queue
        simp [enqueue, withState, attached, left, queue]
      · rw [if_neg left] at queue
        simp [enqueue, withState, attached, left, queue]
    · have late : (firstCode? deeds).isSome = true := by rw [earlier]; rfl
      rw [stands.close_late late, stands.queue, Deed.queued_concat_of_closed late]
      simp only [stays]

/-- Behind a receiver that has left nothing is queued. -/
theorem left (stands : Stands dialect deeds connection) :
    Stands dialect (deeds ++ [.leave]) connection.detach := by
  have first : firstCode? (deeds ++ [.leave]) = firstCode? deeds := by
    rw [Deed.firstCode?_concat]
    exact Option.or_none
  refine ⟨stands.details, ?_, ?_, ?_⟩
  · rw [first]
    exact stands.state
  · simp [detach]
  · simp [detach]

/-- Every deed keeps the account of the deeds before it. -/
theorem does (stands : Stands dialect deeds connection) (deed : Deed) :
    Stands dialect (deeds ++ [deed]) (connection.does deed).1 := by
  cases deed with
  | text content => exact stands.sent rfl
  | binary content => exact stands.sent rfl
  | ping content => exact stands.sent rfl
  | pong content => exact stands.sent rfl
  | close code => exact stands.closed code
  | leave => exact stands.left

theorem doesAll (dialect : Wire.Dialect) (deeds : List Deed) :
    Stands dialect deeds ((Connection.opened dialect).doesAll deeds) := by
  induction deeds using List.reverseRecOn with
  | nil => exact opened dialect
  | append_singleton deeds deed inductionHypothesis =>
    rw [doesAll_concat]
    exact inductionHypothesis.does deed

end Stands

/-- At every point of every sequence of sends and closes on the handle of an open connection, whose
receiver may leave at any point: the connection is closing if it has been closed and open if not, and
it stays closing; as long as the receiver is there, what has been queued are the frames of the sends
in front of the first close, in order, and behind them one end with the close frame of its code, and
afterwards nothing is queued; the next send is accepted exactly if the connection is open and the
dialect has no frame for it or the receiver is there, and refused as closed otherwise; and a send that
is refused and a close that is not the first one change nothing. -/
theorem account_of_deeds (dialect : Wire.Dialect) (deeds : List Deed) :
    let connection := (opened dialect).doesAll deeds
    (connection.state = (if (firstCode? deeds).isSome then .closing else .opened) ∧
      ∀ more, connection.state = .closing →
        ((opened dialect).doesAll (deeds ++ more)).state = .closing) ∧
    connection.queue = (if .leave ∈ deeds then [] else queued dialect deeds) ∧
    (∀ deed opcode payload, deed.sent? = some (opcode, payload) →
      ((connection.does deed).2 = .ok () ↔
        connection.state = .opened ∧
          (dialect.encode? opcode payload = none ∨ .leave ∉ deeds)) ∧
      ((connection.does deed).2 ≠ .ok () → connection.does deed = (connection, .error .closed))) ∧
    ∀ code, connection.state = .closing → (connection.does (.close code)).1 = connection := by
  intro connection
  have stands := Stands.doesAll dialect deeds
  refine ⟨⟨stands.state, fun more closing => ?_⟩, stands.queue, ?_, fun code closing => ?_⟩
  · rw [(Stands.doesAll dialect (deeds ++ more)).closing_iff, firstCode?, List.findSome?_append]
    have closed : (deeds.findSome? Deed.code?).isSome = true := stands.closing_iff.mp closing
    rw [Option.isSome_or, closed, Bool.true_or]
  · intro deed opcode payload sent
    rw [does_of_sent sent, stands.opened_iff]
    by_cases accepted : firstCode? deeds = none ∧
        (dialect.encode? opcode payload = none ∨ .leave ∉ deeds)
    · rw [stands.send_accepted accepted.1 accepted.2]
      exact ⟨iff_of_true rfl accepted, fun refused => absurd rfl refused⟩
    · have refused : (firstCode? deeds).isSome = true ∨
          ((dialect.encode? opcode payload).isSome = true ∧ .leave ∈ deeds) := by
        rw [Option.isSome_iff_ne_none, Option.isSome_iff_ne_none]
        tauto
      rw [stands.send_refused refused]
      exact ⟨iff_of_false nofun accepted, fun _ => rfl⟩
  · exact stands.close_late (stands.closing_iff.mp closing) code

/-- A text, a close, a text that comes too late and another close; then the receiver leaves, and of
what is done from then on only a payload without a frame is accepted. -/
theorem account_of_deeds_closedTwice :
    let deeds : List Deed := [.text "hi", .close 1002, .text "late", .close 1000]
    let connection := (opened .hybi13).doesAll deeds
    connection.queue =
        [.data [0x81, 2, 104, 105], .close (some [0x88, 2, 0x03, 0xea])] ∧
      connection.does (.binary []) = (connection, .error .closed) ∧
      (connection.does (.close 1001)).1 = connection ∧
      (((opened .draft76).doesAll [.leave]).does (.ping [1])).2 = .ok () ∧
      ((opened .draft76).doesAll [.leave]).does (.text "hi") =
        ((opened .draft76).doesAll [.leave], .error .closed) := by
  intro deeds connection
  obtain ⟨⟨state, -⟩, queue, sends, closes⟩ := account_of_deeds .hybi13 deeds
  obtain ⟨-, -, lateSends, -⟩ := account_of_deeds .draft76 [.leave]
  have closing : connection.state = .closing := state
  refine ⟨queue.trans (by decide), (sends _ _ _ rfl).2 fun done => ?_, closes 1001 closing,
    (lateSends _ _ _ rfl).1.mpr ⟨rfl, .inl rfl⟩, (lateSends _ _ _ rfl).2 fun done => ?_⟩
  · have opened := ((sends _ _ _ rfl).1.mp done).1
    rw [closing] at opened
    cases opened
  · exact absurd ((lateSends _ _ _ rfl).1.mp done).2 (by decide)

end Connection

end CashHerald.Session
