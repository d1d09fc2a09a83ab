import CashHerald.Proofs.Session.Feeds

/-!
What is heard of messages before a violation. Main statement: behind a violation the handler has
heard of the messages of all reads before the refused one, and of no message that frames of the
refused read complete.
-/

namespace CashHerald

namespace Wire.Decoder

/-- A decoder of the standard dialect is fed as the one inside it. -/
theorem transcript_hybi13 (inner : Reassembly.Decoder) (chunks : List Octets) :
    Feeding.transcript feed (.hybi13 inner) chunks =
      ⟨(Feeding.transcript Reassembly.Decoder.feed inner chunks).accepted,
        (Feeding.transcript Reassembly.Decoder.feed inner chunks).violation,
        .hybi13 (Feeding.transcript Reassembly.Decoder.feed inner chunks).last⟩ := by
  induction chunks generalizing inner with
  | nil => rfl
  | cons chunk rest inductionHypothesis =>
    rcases fed : inner.feed chunk with ⟨violation | messages, next⟩
    · simp only [Feeding.transcript, feed, fed]
    · simp only [Feeding.transcript, feed, fed, inductionHypothesis]

/-- Chunks that a decoder of the standard dialect accepts are accepted at once. -/
theorem exists_feed_of_transcript {chunks : List Octets} {accepted : List (List Message)}
    {decoder : Decoder}
    (fed : Feeding.transcript feed (.hybi13 .fresh) chunks = ⟨accepted, none, decoder⟩) :
    ∃ inner, decoder = .hybi13 inner ∧
      Reassembly.Decoder.fresh.feed chunks.flatten = (.ok accepted.flatten, inner) := by
  rw [transcript_hybi13] at fed
  rcases run : Feeding.transcript Reassembly.Decoder.feed .fresh chunks with
    ⟨messages, violation, last⟩
  rw [run] at fed
  cases fed
  exact ⟨last, rfl, (Reassembly.feed_incremental.feed_of_transcript rfl run).2⟩

end Wire.Decoder

namespace Session

/-- Messages keep an open connection open for its handler. -/
theorem Stage.hearAll?_ofMessages (messages : List Wire.Message) :
    hearAll? .opened (Event.ofMessages messages) = some .opened := by
  induction messages with
  | nil => rfl
  | cons message rest inductionHypothesis =>
    cases message with
    | close code => exact inductionHypothesis
    | _ => exact (hearAll?_cons _ _ _).trans inductionHypothesis

/-- Behind a fault nothing but the end is heard, and it is heard once nothing is left to do. -/
theorem Standing.eq_closed_of_failed {stage : Stage} {connection : Connection}
    (standing : Standing stage connection []) {messages : List Wire.Message} {fault : Wire.Fault}
    {later : List Event} (heard : Stage.hearAll? .unheard
      (.opened :: (Event.ofMessages messages ++ .failed fault :: later)) = some stage) :
    later = [.closed] := by
  have behind : Stage.hearAll? .failed later = some stage := by
    have opened := (Stage.eq_cons_of_hearAll?_unheard heard).2
    rw [Stage.hearAll?_append, Stage.hearAll?_ofMessages] at opened
    exact opened
  rcases Stage.eq_last_of_hearAll?_failed behind with ⟨-, rfl⟩ | ⟨same, -⟩
  · cases standing.ended_of_done nofun
  · exact same

/-- A session at rest whose decoder has been fed with a violation has ended. Its handler has heard
of the messages of the reads before the last one, and then of the violation. -/
theorem Hears.of_refused {Memory : Type} {feeds : List Octets} {events : List Event}
    {phase : Phase} {violation : Wire.Violation} {last : Wire.Reassembly.Decoder}
    (hears : Hears (.hybi13 .fresh) feeds events (Activity.waiting phase : Activity Memory).tasks)
    (outcome : Wire.Reassembly.Decoder.fresh.feed feeds.flatten = (.error violation, last)) :
    phase = .ended ∧ ∃ before read accepted decoder later, feeds = before ++ [read] ∧
      Wire.Reassembly.Decoder.fresh.feed before.flatten = (.ok accepted, decoder) ∧
      events = Event.ofMessages accepted ++ .failed (.protocol violation) :: later := by
  have passed {accepted : List (List Wire.Message)} {decoder : Wire.Decoder} :
      Wire.Feeding.transcript Wire.Decoder.feed (.hybi13 .fresh) feeds ≠
        ⟨accepted, none, decoder⟩ := by
    intro fed
    obtain ⟨inner, -, accepts⟩ := Wire.Decoder.exists_feed_of_transcript fed
    cases accepts.symm.trans outcome
  generalize works : (Activity.waiting phase : Activity Memory).tasks = tasks at hears
  cases hears with
  | goes fed => exact absurd fed passed
  | stops fed => exact absurd fed passed
  | @refused before read accepted decoder last other tasks cut fed refused final heard =>
    subst works cut
    refine ⟨final.waiting, before, read, accepted.flatten, ?_⟩
    obtain ⟨inner, rfl, accepts⟩ := Wire.Decoder.exists_feed_of_transcript fed
    obtain rfl : other = violation := by
      rw [List.flatten_append, List.flatten_singleton,
        Wire.Reassembly.feed_incremental.resumes accepts] at outcome
      rcases met : inner.feed read with ⟨found, next⟩
      simp only [Wire.Decoder.feed, met, Prod.mk.injEq] at refused
      rw [met, refused.1] at outcome
      cases outcome
      rfl
    rcases heard with ⟨-, left⟩ | ⟨later, heard⟩
    · rw [final.waiting] at left
      cases left
    · exact ⟨inner, later, rfl, accepts, heard⟩

namespace Watched

variable {Memory : Type}

/-- A connection with the details of the standard dialect has been heard of. -/
theorem exists_opened {watched : Watched Memory} {settings : Settings} {stage : Stage}
    {details : Details} (disciplined : watched.moment.Disciplined stage)
    (serves : watched.Serves settings)
    (known : watched.moment.connection.details = some details)
    (speaks : details.dialect = .hybi13) :
    ∃ events, watched.moment.callbacks = .opened :: events ∧
      Hears (.hybi13 .fresh) watched.feeds events watched.moment.activity.tasks := by
  have heard : watched.moment.callbacks ≠ [] := by
    intro untold
    have standing := disciplined.standing
    rw [disciplined.unheard_iff.mpr untold] at standing
    generalize watched.moment.connection = connection at standing known
    cases standing with
    | fresh early => cases known
    | refused silent left touched => simp [Connection.hasOpened, known, speaks] at silent
  cases serves with
  | undecided untold => exact absurd untold heard
  | unserved untold => exact absurd untold heard
  | opening accepts untold => exact absurd untold heard
  | @opened request other response fresh events accepts told fed knows hears =>
    obtain rfl := Option.some.inj (knows.symm.trans known)
    have same := accepts.speaks
    rw [speaks] at same
    cases same
    exact ⟨events, told, hears⟩

/-- The run when the session has been left alone for some turns. -/
def leftAlone (handler : Handler Memory) (settings : Settings) (client : Nat)
    (watched : Watched Memory) (count : Nat) : Watched Memory :=
  watched.run handler settings client (List.replicate count .proceed)

/-- A session that is left alone feeds nothing to its decoder. -/
theorem feeds_leftAlone (handler : Handler Memory) (settings : Settings) (client : Nat)
    (watched : Watched Memory) (count : Nat) :
    (watched.leftAlone handler settings client count).feeds = watched.feeds := by
  induction count generalizing watched with
  | zero => rfl
  | succ count inductionHypothesis =>
    refine (inductionHypothesis (watched.turn handler settings client .proceed)).trans ?_
    unfold turn
    split
    · rename_i never
      cases never
    · rfl

theorem details_run {watched : Watched Memory} {stage : Stage} {details : Details}
    (disciplined : watched.moment.Disciplined stage)
    (known : watched.moment.connection.details = some details) (handler : Handler Memory)
    (settings : Settings) (client : Nat) (turns : List (Turn Memory)) :
    (watched.run handler settings client turns).moment.connection.details = some details := by
  induction turns generalizing watched stage with
  | nil => exact known
  | cons next rest inductionHypothesis =>
    obtain ⟨later, kept⟩ := disciplined.turn handler settings client next
    have still := Moment.details_turn disciplined known handler settings client next
    rw [← moment_turn] at kept still
    exact inductionHypothesis kept still

/-- In every run of a connection in the standard dialect whose decoder has been fed with whole
accepted frames and a frame that shows a violation, the session comes to rest if it is left alone,
and then it has ended. The violation was met in the last read; the handler has heard of the messages
that the reads before have completed, in order, then of the violation, and last that the connection
has closed. So it has heard of all messages before the violation exactly if those that the last read
completes are none of which a handler is told. -/
theorem callbacks_of_foundBefore (handler : Handler Memory) (settings : Settings) (client : Nat)
    (memory : Memory) (turns : List (Turn Memory)) {violation : Wire.Violation}
    {messages : List Wire.Message}
    (speaks : ((start memory).run handler settings client turns).moment.connection.details.map
      (·.dialect) = some .hybi13)
    (found : Wire.Reassembly.FoundBefore violation
      ((start memory).run handler settings client turns).feeds.flatten messages) :
    let alone :=
      ((start memory).run handler settings client turns).leftAlone handler settings client
    (∃ count phase, (alone count).moment.activity = .waiting phase) ∧
      ∀ count phase, (alone count).moment.activity = .waiting phase →
        phase = .ended ∧ ∃ before read accepted lost decoder,
          (alone count).feeds = before ++ [read] ∧
          Wire.Reassembly.Decoder.fresh.feed before.flatten = (.ok accepted, decoder) ∧
          messages = accepted ++ lost ∧
          (alone count).moment.callbacks = .opened :: (Event.ofMessages accepted ++
            [.failed (.protocol violation), .closed]) ∧
          ((alone count).moment.callbacks = .opened :: (Event.ofMessages messages ++
            [.failed (.protocol violation), .closed]) ↔ Event.ofMessages lost = []) := by
  intro alone
  constructor
  · obtain ⟨phase, later, ⟨count, reached⟩, waits⟩ := Moment.exists_proceeds_waiting handler
      settings client ((start memory).run handler settings client turns).moment
    refine ⟨count, phase, ?_⟩
    rw [← reached] at waits
    exact (congrArg Moment.activity (moment_run _ _ _ _ _)).trans waits
  · intro count phase waits
    obtain ⟨details, known, speaks⟩ := Option.map_eq_some_iff.mp speaks
    obtain ⟨first, early, -⟩ := serves_run handler settings client memory turns
    obtain ⟨stage, disciplined, serves⟩ : ∃ stage, (alone count).moment.Disciplined stage ∧
        (alone count).Serves settings := by
      have whole := serves_run handler settings client memory
        (turns ++ List.replicate count .proceed)
      rwa [run_append] at whole
    have still : (alone count).moment.connection.details = some details :=
      details_run early known handler settings client _
    rw [← feeds_leftAlone handler settings client _ count] at found
    obtain ⟨events, told, hears⟩ := exists_opened disciplined serves still speaks
    obtain ⟨last, outcome⟩ := Wire.Reassembly.feed_of_foundBefore found
    have standing := disciplined.standing
    rw [waits] at hears standing
    obtain ⟨rfl, before, read, accepted, decoder, later, cut, passed, rfl⟩ :=
      hears.of_refused outcome
    have heard := disciplined.heard
    rw [told] at heard
    obtain rfl := standing.eq_closed_of_failed heard
    obtain ⟨lost, rfl⟩ := Wire.Reassembly.prefix_of_foundBefore found
      ⟨read, by rw [cut, List.flatten_append, List.flatten_singleton]⟩ passed
    refine ⟨rfl, before, read, accepted, lost, decoder, cut, passed, rfl, told, ?_⟩
    rw [told]
    simp [Event.ofMessages, List.filterMap_append]

/-- A client shakes hands, and then what it sends comes in some reads. -/
def visitIn (reads : List Octets) : List (Turn Unit) :=
  .arrive (.data Moment.knock.raw) :: List.replicate 4 .proceed ++
    reads.flatMap fun read => .arrive (.data read) :: List.replicate 3 .proceed

/-- A frame with reserved bits. -/
def brokenFrame : Octets :=
  [193, 128]

theorem foundBefore_brokenFrame :
    Wire.Reassembly.FoundBefore .reservedBits (greetingFrame ++ brokenFrame) [.text "hi"] :=
  ⟨greetingFrame, brokenFrame, none, rfl, by decide +kernel, .malformed (by decide +kernel)⟩

/-- A message and a violation come in two reads. -/
def brokenApart : List (Turn Unit) :=
  visitIn [greetingFrame, brokenFrame]

theorem callbacks_of_brokenApart :
    ((start ()).run Moment.greeter ⟨"ws", [], 100⟩ 0 brokenApart).moment.connection.details.map
        (·.dialect) = some .hybi13 ∧
      Wire.Reassembly.FoundBefore .reservedBits
        ((start ()).run Moment.greeter ⟨"ws", [], 100⟩ 0 brokenApart).feeds.flatten [.text "hi"] ∧
      ∃ count, (((start ()).run Moment.greeter ⟨"ws", [], 100⟩ 0 brokenApart).leftAlone
        Moment.greeter ⟨"ws", [], 100⟩ 0 count).moment.callbacks =
          [.opened, .text "hi", .failed (.protocol .reservedBits), .closed] := by
  have speaks : ((start ()).run Moment.greeter ⟨"ws", [], 100⟩ 0
      brokenApart).moment.connection.details.map (·.dialect) = some .hybi13 := by decide +kernel
  have fed : ((start ()).run Moment.greeter ⟨"ws", [], 100⟩ 0 brokenApart).feeds =
      [greetingFrame] ++ [brokenFrame] := by decide +kernel
  have found : Wire.Reassembly.FoundBefore .reservedBits
      ((start ()).run Moment.greeter ⟨"ws", [], 100⟩ 0 brokenApart).feeds.flatten [.text "hi"] := by
    rw [fed]
    exact foundBefore_brokenFrame
  obtain ⟨⟨count, phase, waits⟩, outcome⟩ := callbacks_of_foundBefore Moment.greeter
    ⟨"ws", [], 100⟩ 0 () brokenApart speaks found
  obtain ⟨-, before, read, accepted, lost, decoder, cut, passed, -, told, -⟩ :=
    outcome count phase waits
  rw [feeds_leftAlone] at cut
  obtain ⟨rfl, -⟩ := List.append_inj' (cut.symm.trans fed) rfl
  have text : Wire.Reassembly.Decoder.fresh.feed [greetingFrame].flatten =
      (.ok [.text "hi"], .fresh) := by decide +kernel
  cases text.symm.trans passed
  exact ⟨speaks, found, count, told⟩

/-- A message and a violation come in one read, and the handler does not hear of the message. -/
theorem text_unheard :
    let watched := (start ()).run Moment.greeter ⟨"ws", [], 100⟩ 0
      (visitIn [greetingFrame ++ brokenFrame] ++ List.replicate 3 .proceed)
    watched.moment.connection.details.map (·.dialect) = some .hybi13 ∧
      Wire.Reassembly.FoundBefore .reservedBits watched.feeds.flatten [.text "hi"] ∧
      watched.moment.callbacks = [.opened, .failed (.protocol .reservedBits), .closed] := by
  intro watched
  have fed : watched.feeds.flatten = greetingFrame ++ brokenFrame := by decide +kernel
  refine ⟨by decide +kernel, ?_, by decide +kernel⟩
  rw [fed]
  exact foundBefore_brokenFrame

end Watched

end Session

end CashHerald
