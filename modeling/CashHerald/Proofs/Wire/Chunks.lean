import CashHerald.Proofs.Wire.Extension
import CashHerald.Proofs.Wire.Transcript

/-!
Streams that arrive in chunks. A decoder that is fed chunk by chunk finds the messages, the violation
and the state that it finds in the whole stream. Main statements: feeding a concatenation is feeding
its parts one after the other, and every way to cut a stream gives the outcome of the whole.
-/

namespace CashHerald.Wire.Reassembly

theorem drain_of_error {buffer : Octets} {violation : Violation}
    (refused : Frame.parse buffer = .error violation) (earlier : List Message)
    (started : Option Started) :
    drain earlier started buffer = (.error violation, ⟨buffer, started⟩) := by
  rw [drain.eq_def]
  split <;> simp_all

theorem drain_of_incomplete {buffer : Octets} (incomplete : Frame.parse buffer = .ok none)
    (earlier : List Message) (started : Option Started) :
    drain earlier started buffer = (.ok earlier.reverse, ⟨buffer, started⟩) := by
  rw [drain.eq_def]
  split <;> simp_all

/-- A frame at the front of a buffer is accepted before the rest is read. -/
theorem drain_of_frame {buffer rest : Octets} {frame : Frame}
    (found : Frame.parse buffer = .ok (some (frame, rest))) (earlier : List Message)
    (started : Option Started) :
    drain earlier started buffer =
      match accept started frame with
      | (next, .error violation) => (.error violation, ⟨rest, next⟩)
      | (next, .ok message) => drain (message.toList ++ earlier) next rest := by
  rw [drain.eq_def]
  split
  · simp_all
  · simp_all
  · rename_i otherFrame otherRest otherFound
    rw [found] at otherFound
    cases otherFound
    split <;> simp_all

/-- Messages found earlier come first and change nothing else. -/
theorem drain_behind (late earlier : List Message) (started : Option Started) (buffer : Octets) :
    drain (late ++ earlier) started buffer =
      ((drain late started buffer).1.map (earlier.reverse ++ ·),
        (drain late started buffer).2) := by
  induction late, started, buffer using drain.induct with
  | case1 late started buffer violation refused =>
    rw [drain_of_error refused, drain_of_error refused]
    rfl
  | case2 late started buffer incomplete =>
    rw [drain_of_incomplete incomplete, drain_of_incomplete incomplete, List.reverse_append]
    rfl
  | case3 late started buffer frame rest found next violation refused =>
    rw [drain_of_frame found, drain_of_frame found, refused]
    rfl
  | case4 late started buffer frame rest found next accepted inductionHypothesis =>
    rw [drain_of_frame found, drain_of_frame found, accepted]
    exact inductionHypothesis
  | case5 late started buffer frame rest found next message accepted inductionHypothesis =>
    rw [drain_of_frame found, drain_of_frame found, accepted]
    exact inductionHypothesis

/-- Reading goes on where it stopped when octets are added, unless it has met a violation. -/
theorem drain_append (earlier : List Message) (started : Option Started) (buffer more : Octets) :
    drain earlier started (buffer ++ more) =
      match drain earlier started buffer with
      | (.error violation, last) => (.error violation, ⟨last.buffer ++ more, last.started⟩)
      | (.ok messages, last) => drain messages.reverse last.started (last.buffer ++ more) := by
  induction earlier, started, buffer using drain.induct with
  | case1 earlier started buffer violation refused =>
    rw [drain_of_error refused, drain_of_error (Frame.parse_append_of_error refused more)]
  | case2 earlier started buffer incomplete =>
    rw [drain_of_incomplete incomplete]
    simp only [List.reverse_reverse]
  | case3 earlier started buffer frame rest found next violation refused =>
    rw [drain_of_frame found, drain_of_frame (Frame.parse_append_of_frame found more), refused]
  | case4 earlier started buffer frame rest found next accepted inductionHypothesis =>
    rw [drain_of_frame found, drain_of_frame (Frame.parse_append_of_frame found more), accepted]
    exact inductionHypothesis
  | case5 earlier started buffer frame rest found next message accepted inductionHypothesis =>
    rw [drain_of_frame found, drain_of_frame (Frame.parse_append_of_frame found more), accepted]
    exact inductionHypothesis

/-- Feeding a concatenation is feeding its parts one after the other. -/
theorem Decoder.feed_append (decoder : Decoder) (first second : Octets) :
    decoder.feed (first ++ second) =
      match decoder.feed first with
      | (.error violation, last) => (.error violation, ⟨last.buffer ++ second, last.started⟩)
      | (.ok messages, last) =>
        ((last.feed second).1.map (messages ++ ·), (last.feed second).2) := by
  unfold Decoder.feed
  rw [← List.append_assoc, drain_append]
  rcases drain [] decoder.started (decoder.buffer ++ first) with ⟨_ | messages, last⟩
  · rfl
  · have behind := drain_behind [] messages.reverse last.started (last.buffer ++ second)
    rw [List.nil_append, List.reverse_reverse] at behind
    exact behind

/-- A buffer that is left by accepted octets holds no complete frame and no violation. -/
theorem parse_buffer_of_drain {earlier messages : List Message} {started : Option Started}
    {buffer : Octets} {last : Decoder}
    (outcome : drain earlier started buffer = (.ok messages, last)) :
    Frame.parse last.buffer = .ok none := by
  induction earlier, started, buffer using drain.induct with
  | case1 earlier started buffer violation refused =>
    rw [drain_of_error refused] at outcome
    cases outcome
  | case2 earlier started buffer incomplete =>
    rw [drain_of_incomplete incomplete] at outcome
    cases outcome
    exact incomplete
  | case3 earlier started buffer frame rest found next violation refused =>
    rw [drain_of_frame found, refused] at outcome
    cases outcome
  | case4 earlier started buffer frame rest found next accepted inductionHypothesis =>
    rw [drain_of_frame found, accepted] at outcome
    exact inductionHypothesis outcome
  | case5 earlier started buffer frame rest found next message accepted inductionHypothesis =>
    rw [drain_of_frame found, accepted] at outcome
    exact inductionHypothesis outcome

/-- A decoder without a complete frame in its buffer can be fed in parts. -/
theorem feed_incremental :
    Feeding.Incremental Decoder.feed fun decoder => Frame.parse decoder.buffer = .ok none where
  nothing := by
    intro decoder settled
    rw [Decoder.feed, List.append_nil, drain_of_incomplete settled]
    rfl
  settled := parse_buffer_of_drain
  resumes := by
    intro decoder front messages next outcome back
    rw [Decoder.feed_append, outcome]
  refuses := by
    rintro decoder front ⟨violation, last, outcome⟩ back
    refine ⟨violation, ⟨last.buffer ++ back, last.started⟩, ?_⟩
    rw [Decoder.feed_append, outcome]

/-- The frame at the front of the octets shows the violation, by its header or by its place among
the fragments. -/
inductive Offends (violation : Violation) (started : Option Started) (octets : Octets) : Prop where
  | malformed (refused : Frame.parse octets = .error violation)
  | misplaced {frame : Frame} {rest : Octets} (found : Frame.parse octets = .ok (some (frame, rest)))
      (refused : (accept started frame).2 = .error violation)

/-- The messages of a stream before the frame that shows the violation. -/
def FoundBefore (violation : Violation) (stream : Octets) (messages : List Message) : Prop :=
  ∃ clean offending started, stream = clean ++ offending ∧
    Decoder.fresh.feed clean = (.ok messages, ⟨[], started⟩) ∧
    Offends violation started offending

/-- A violation is met at a frame, and the octets before it are whole accepted frames. -/
theorem offends_of_drain {earlier : List Message} {started : Option Started} {buffer : Octets}
    {violation : Violation} {last : Decoder}
    (outcome : drain earlier started buffer = (.error violation, last)) :
    ∃ clean offending messages next, buffer = clean ++ offending ∧
      drain earlier started clean = (.ok messages, ⟨[], next⟩) ∧
      Offends violation next offending := by
  induction earlier, started, buffer using drain.induct with
  | case1 earlier started buffer other refused =>
    rw [drain_of_error refused] at outcome
    cases outcome
    exact ⟨[], buffer, earlier.reverse, started, rfl, drain_of_incomplete rfl _ _,
      .malformed refused⟩
  | case2 earlier started buffer incomplete =>
    rw [drain_of_incomplete incomplete] at outcome
    cases outcome
  | case3 earlier started buffer frame rest found next other refused =>
    rw [drain_of_frame found, refused] at outcome
    cases outcome
    exact ⟨[], buffer, earlier.reverse, started, rfl, drain_of_incomplete rfl _ _,
      .misplaced found (congrArg Prod.snd refused)⟩
  | case4 earlier started buffer frame rest found next accepted inductionHypothesis =>
    rw [drain_of_frame found, accepted] at outcome
    obtain ⟨clean, offending, messages, final, rfl, read, offends⟩ := inductionHypothesis outcome
    obtain ⟨front, rfl, again⟩ := Frame.parse_front found
    refine ⟨front ++ clean, offending, messages, final, by simp, ?_, offends⟩
    rw [drain_of_frame (again clean), accepted]
    exact read
  | case5 earlier started buffer frame rest found next message accepted inductionHypothesis =>
    rw [drain_of_frame found, accepted] at outcome
    obtain ⟨clean, offending, messages, final, rfl, read, offends⟩ := inductionHypothesis outcome
    obtain ⟨front, rfl, again⟩ := Frame.parse_front found
    refine ⟨front ++ clean, offending, messages, final, by simp, ?_, offends⟩
    rw [drain_of_frame (again clean), accepted]
    exact read

/-- An accepted front of the frame that shows the violation completes no message. -/
theorem messages_of_offends {violation : Violation} {started : Option Started} {front back : Octets}
    (offends : Offends violation started (front ++ back)) {messages : List Message}
    {last : Decoder} (outcome : Decoder.feed ⟨[], started⟩ front = (.ok messages, last)) :
    messages = [] := by
  change drain [] started front = (.ok messages, last) at outcome
  cases parsed : Frame.parse front with
  | error other =>
    rw [drain_of_error parsed] at outcome
    cases outcome
  | ok read =>
    cases read with
    | none =>
      rw [drain_of_incomplete parsed] at outcome
      cases outcome
      rfl
    | some read =>
      -- The whole frame stands in the front, so the feed has met the violation.
      have whole := Frame.parse_append_of_frame parsed back
      cases offends with
      | malformed refused =>
        rw [refused] at whole
        cases whole
      | misplaced found refused =>
        rw [found] at whole
        cases whole
        rw [drain_of_frame parsed] at outcome
        split at outcome
        · cases outcome
        · simp_all

/-- Messages of an accepted front of the stream come before the frame that shows the violation. -/
theorem prefix_of_foundBefore {violation : Violation} {stream front : Octets}
    {messages accepted : List Message} {last : Decoder}
    (found : FoundBefore violation stream messages) (leads : front <+: stream)
    (outcome : Decoder.fresh.feed front = (.ok accepted, last)) : accepted <+: messages := by
  obtain ⟨clean, offending, started, rfl, read, offends⟩ := found
  rcases List.prefix_or_prefix_of_prefix leads (List.prefix_append clean offending) with
    inside | beyond
  · obtain ⟨rest, rfl⟩ := inside
    obtain ⟨later, -, rfl⟩ := feed_incremental.accepted_append outcome read
    exact List.prefix_append accepted later
  · obtain ⟨part, rfl⟩ := beyond
    obtain ⟨back, rfl⟩ := (List.prefix_append_right_inj clean).mp leads
    obtain ⟨later, feed, rfl⟩ := feed_incremental.accepted_append read outcome
    have nothingMore : messages ++ later = messages := by
      rw [messages_of_offends offends feed, List.append_nil]
    exact ⟨[], (List.append_nil _).trans nothingMore⟩

/-- A stream with a frame that shows a violation behind whole accepted frames is refused. -/
theorem feed_of_foundBefore {violation : Violation} {stream : Octets} {messages : List Message}
    (found : FoundBefore violation stream messages) :
    ∃ last, Decoder.fresh.feed stream = (.error violation, last) := by
  obtain ⟨clean, offending, started, rfl, read, offends⟩ := found
  have refused : ∃ last, Decoder.feed ⟨[], started⟩ offending = (.error violation, last) := by
    cases offends with
    | malformed refused => exact ⟨_, drain_of_error refused _ _⟩
    | @misplaced frame rest found refused =>
      rcases accepted : accept started frame with ⟨next, outcome⟩
      rw [accepted] at refused
      obtain rfl : outcome = .error violation := refused
      refine ⟨⟨rest, next⟩, ?_⟩
      change drain [] started offending = _
      rw [drain_of_frame found, accepted]
  obtain ⟨last, outcome⟩ := refused
  refine ⟨last, ?_⟩
  rw [feed_incremental.resumes read, outcome]
  rfl

/-- Every way to cut a stream into chunks gives the outcome of the whole stream. If it is accepted,
so is every chunk, and the messages and the last decoder are the same. If it is refused, the same
violation ends the feeds in the chunk that holds the last octet of the shortest refused prefix, and
the messages of the chunks before it come before the frame that shows the violation. -/
theorem transcript_eq_feed (chunks : List Octets) :
    match Decoder.fresh.feed chunks.flatten with
    | (.ok messages, last) =>
      ∃ accepted, Feeding.transcript Decoder.feed .fresh chunks = ⟨accepted, none, last⟩ ∧
        accepted.length = chunks.length ∧ accepted.flatten = messages
    | (.error violation, _) =>
      ∃ accepted last front messages,
        Feeding.transcript Decoder.feed .fresh chunks = ⟨accepted, some violation, last⟩ ∧
        Feeding.ShortestRefused Decoder.feed .fresh chunks.flatten front ∧
        (chunks.take accepted.length).flatten.length < front.length ∧
        front.length ≤ (chunks.take (accepted.length + 1)).flatten.length ∧
        FoundBefore violation chunks.flatten messages ∧
        accepted.flatten <+: messages := by
  have settled : Frame.parse Decoder.fresh.buffer = .ok none := rfl
  rcases run : Feeding.transcript Decoder.feed .fresh chunks with ⟨accepted, _ | violation, last⟩
  · obtain ⟨length, outcome⟩ := feed_incremental.feed_of_transcript settled run
    rw [outcome]
    exact ⟨accepted, rfl, length, rfl⟩
  · obtain ⟨before, chunk, after, middle, cut, length, passed, refused⟩ :=
      feed_incremental.feed_of_refused_transcript settled run
    have outcome : Decoder.fresh.feed chunks.flatten =
        (.error violation, ⟨last.buffer ++ after.flatten, last.started⟩) := by
      rw [cut, List.append_cons, List.flatten_append, Decoder.feed_append, refused]
    obtain ⟨front, shortest⟩ := Feeding.exists_shortestRefused ⟨_, _, outcome⟩
    obtain ⟨start, stop⟩ := feed_incremental.shortestRefused_within settled run shortest
    obtain ⟨clean, offending, messages, started, whole, read, offends⟩ := offends_of_drain outcome
    have found : FoundBefore violation chunks.flatten messages :=
      ⟨clean, offending, started, whole, read, offends⟩
    have leads : before.flatten <+: chunks.flatten :=
      ⟨(chunk :: after).flatten, by rw [cut, List.flatten_append]⟩
    rw [outcome]
    exact ⟨accepted, last, front, messages, rfl, shortest, start, stop, found,
      prefix_of_foundBefore found leads passed⟩

end CashHerald.Wire.Reassembly
