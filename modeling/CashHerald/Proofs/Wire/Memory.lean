import CashHerald.Proofs.Wire.Chunks
import CashHerald.Proofs.Wire.RawFrame
import CashHerald.Proofs.Wire.Splitting

/-!
What a decoder keeps between two feeds. A peer chooses the chunks, the announced lengths and the
number of fragments, and a decoder holds no more than one frame that is not complete and one message
that is not. Main statement: however a stream is cut, the buffer and the fragments stay bounded, and
so do the messages.
-/

namespace CashHerald.Wire

/-- The octets of a message; of a close message only the code is told. -/
def Message.size : Message → Nat
  | .text content => (Utf8.encode content).length
  | .binary content => content.length
  | .ping content => content.length
  | .pong content => content.length
  | .close none => 0
  | .close (some _) => 2

/-- A message that is no larger than a frame may be. -/
def Message.Fits (message : Message) : Prop :=
  message.size ≤ Frame.sizeLimit

/-- What every accepted feed keeps of the state, and what holds of the messages of every feed, holds
when all chunks have been accepted. -/
theorem Feeding.kept_of_transcript {State : Type} {feeding : Feeding State} {Kept : State → Prop}
    {Holds : Message → Prop}
    (fed : ∀ {state data messages next}, Kept state → feeding state data = (.ok messages, next) →
      Kept next ∧ ∀ message ∈ messages, Holds message)
    {state last : State} (kept : Kept state) {chunks : List Octets} {accepted : List (List Message)}
    (run : feeding.transcript state chunks = ⟨accepted, none, last⟩) :
    Kept last ∧ ∀ message ∈ accepted.flatten, Holds message := by
  induction chunks generalizing state accepted with
  | nil =>
    cases run
    exact ⟨kept, List.forall_mem_nil _⟩
  | cons chunk rest inductionHypothesis =>
    simp only [transcript] at run
    split at run
    · cases run
    · rename_i messages next passed
      rcases later : feeding.transcript next rest with ⟨laterAccepted, laterViolation, laterLast⟩
      rw [later] at run
      cases run
      obtain ⟨between, first⟩ := fed kept passed
      obtain ⟨final, others⟩ := inductionHypothesis between later
      refine ⟨final, ?_⟩
      rw [List.flatten_cons, List.forall_mem_append]
      exact ⟨first, others⟩

namespace Frame

/-- The octets of a length are eight at most. -/
theorem length_le_of_announcedLength? {second : UInt8} {rest body : Octets} {length : Nat}
    (announced : announcedLength? second rest = some (length, body)) :
    rest.length ≤ body.length + 8 := by
  have field {width : Nat} (few : width ≤ 8) (split : (Octets.splitExactly? width rest).map
      (fun parts => (Octets.ofBigEndian parts.1, parts.2)) = some (length, body)) :
      rest.length ≤ body.length + 8 := by
    obtain ⟨⟨digits, later⟩, inside, equal⟩ := Option.map_eq_some_iff.mp split
    cases equal
    obtain ⟨rfl, exact⟩ := Octets.splitExactly?_eq_some_iff.mp inside
    simp only [List.length_append]
    omega
  simp only [announcedLength?] at announced
  split at announced
  · exact field (by decide) announced
  · split at announced
    · exact field (by decide) announced
    · cases announced
      exact Nat.le_add_right _ _

/-- A length whose octets have not all come leaves fewer than eight. -/
theorem length_lt_of_announcedLength?_eq_none {second : UInt8} {rest : Octets}
    (missing : announcedLength? second rest = none) : rest.length < 8 := by
  simp only [announcedLength?] at missing
  split at missing
  · have few := Octets.splitExactly?_eq_none_iff.mp (Option.map_eq_none_iff.mp missing)
    omega
  · split at missing
    · exact Octets.splitExactly?_eq_none_iff.mp (Option.map_eq_none_iff.mp missing)
    · cases missing

/-- A payload is read from its octets behind the mask, and not from fewer. -/
theorem length_of_masked? {length : Nat} {rest payload later : Octets}
    (found : masked? length rest = some (payload, later)) : payload.length = length := by
  unfold masked? at found
  split at found
  · obtain ⟨⟨hidden, behind⟩, inside, equal⟩ := Option.map_eq_some_iff.mp found
    cases equal
    rw [Mask.length_apply]
    exact (Octets.splitExactly?_eq_some_iff.mp inside).2
  · cases found

theorem length_lt_of_masked?_eq_none {length : Nat} {rest : Octets}
    (missing : masked? length rest = none) : rest.length < length + 4 := by
  unfold masked? at missing
  split at missing
  · have few := Octets.splitExactly?_eq_none_iff.mp (Option.map_eq_none_iff.mp missing)
    simp only [List.length_cons]
    omega
  · rename_i short
    match rest with
    | [] | [_] | [_, _] | [_, _, _] =>
      simp only [List.length_cons, List.length_nil]
      omega
    | first :: second :: third :: fourth :: body =>
      exact absurd rfl (short first second third fourth body)

/-- A body that is not complete is shorter than the largest one behind its mask. -/
theorem length_lt_of_parseBody_eq_none {opcode : Opcode} {fin : Bool} {length : Nat} {rest : Octets}
    (incomplete : parseBody opcode fin length rest = .ok none) : rest.length < sizeLimit + 4 := by
  unfold parseBody at incomplete
  split at incomplete
  · cases incomplete
  · split at incomplete
    · cases incomplete
    · have missing := Option.map_eq_none_iff.mp (Except.ok.inj incomplete)
      have few := length_lt_of_masked?_eq_none missing
      omega

/-- An incomplete frame has fourteen octets of header and mask at most, and lacks one octet at
least. -/
theorem length_le_of_incomplete {buffer : Octets} (incomplete : parse buffer = .ok none) :
    buffer.length ≤ sizeLimit + 13 := by
  match buffer with
  | [] => exact Nat.zero_le _
  | [_] => exact Nat.le_add_left _ _
  | first :: second :: rest =>
    rw [List.length_cons, List.length_cons]
    simp only [parse] at incomplete
    split at incomplete
    · cases incomplete
    · split at incomplete
      · cases incomplete
      · split at incomplete
        · cases incomplete
        · split at incomplete
          · rename_i missing
            have few := length_lt_of_announcedLength?_eq_none missing
            omega
          · rename_i length body announced
            have field := length_le_of_announcedLength? announced
            have few := length_lt_of_parseBody_eq_none incomplete
            omega

theorem length_payload_le_of_parse {buffer later : Octets} {frame : Frame}
    (found : parse buffer = .ok (some (frame, later))) : frame.payload.length ≤ sizeLimit := by
  obtain ⟨first, second, rest, opcode, length, body, -, -, -, -, -, inside⟩ :=
    parse_eq_frame_iff.mp found
  obtain ⟨-, small, payload, unmasked, rfl⟩ := parseBody_eq_frame_iff.mp inside
  rw [length_of_masked? unmasked]
  exact small

end Frame

namespace Reassembly

/-- The fragments of a message in progress are no larger together than a message may be. -/
def Small (started : Option Started) : Prop :=
  ∀ earlier ∈ started, earlier.gathered.length ≤ Frame.sizeLimit

theorem small_none : Small none := by
  intro earlier mem
  cases mem

theorem small_some {started : Started} (fits : started.gathered.length ≤ Frame.sizeLimit) :
    Small (some started) := by
  intro earlier mem
  obtain rfl := Option.some.inj mem
  exact fits

theorem size_of_complete {content : Content} {payload : Octets} {message : Message}
    (completed : complete content payload = .ok message) : message.size = payload.length := by
  cases content with
  | binary =>
    cases completed
    rfl
  | text =>
    unfold complete at completed
    cases read : Utf8.decode? payload with
    | none =>
      rw [read] at completed
      cases completed
    | some text =>
      rw [read] at completed
      cases completed
      rw [Utf8.decode?_eq_some_iff.mp read]
      rfl

theorem size_le_of_closeMessage {payload : Octets} {message : Message}
    (closed : closeMessage payload = .ok message) : message.size ≤ payload.length := by
  match payload with
  | [] =>
    cases closed
    exact Nat.le_refl 0
  | [_] => cases closed
  | high :: low :: reason =>
    simp only [closeMessage] at closed
    split at closed
    · cases closed
    · split at closed
      · cases closed
      · cases closed
        rw [List.length_cons, List.length_cons]
        exact Nat.le_add_left 2 reason.length

/-- What a frame leaves in progress is small, and the message that it completes is too. -/
structure Modest (outcome : Option Started × Except Violation (Option Message)) : Prop where
  started : Small outcome.1
  message : ∀ message, outcome.2 = .ok (some message) → message.Fits

section Modest

variable {started : Option Started}

theorem modest_silent (small : Small started) : Modest (started, .ok none) := by
  refine ⟨small, fun message told => ?_⟩
  cases told

theorem modest_violation (small : Small started) (violation : Violation) :
    Modest (started, .error violation) := by
  refine ⟨small, fun message told => ?_⟩
  cases told

theorem modest_message (small : Small started) {message : Message} (fits : message.Fits) :
    Modest (started, .ok (some message)) := by
  refine ⟨small, fun other told => ?_⟩
  cases told
  exact fits

/-- A message that is read from a payload is no larger than the payload. -/
theorem modest_read (small : Small started) {payload : Octets}
    (fits : payload.length ≤ Frame.sizeLimit) {read : Except Violation Message}
    (sizes : ∀ message, read = .ok message → message.size ≤ payload.length) :
    Modest (started, read.map some) := by
  cases read with
  | error violation => exact modest_violation small violation
  | ok message => exact modest_message small ((sizes message rfl).trans fits)

theorem modest_completed (content : Content) {payload : Octets}
    (fits : payload.length ≤ Frame.sizeLimit) : Modest (none, (complete content payload).map some) :=
  modest_read small_none fits fun _ completed => (size_of_complete completed).le

variable {frame : Frame}

theorem modest_start (content : Content) (small : Small started)
    (fits : frame.payload.length ≤ Frame.sizeLimit) : Modest (start content started frame) := by
  cases started with
  | some earlier => exact modest_violation small _
  | none =>
    unfold start
    cases frame.fin with
    | true => exact modest_completed content fits
    | false => exact modest_silent (small_some fits)

theorem modest_resume (small : Small started) : Modest (resume started frame) := by
  cases started with
  | none => exact modest_violation small _
  | some earlier =>
    simp only [resume]
    split
    · exact modest_violation small_none _
    · rename_i fits
      split
      · exact modest_completed earlier.content (Nat.le_of_not_gt fits)
      · exact modest_silent (small_some (Nat.le_of_not_gt fits))

/-- No frame makes the fragments or a message too large. -/
theorem modest_accept (small : Small started) (fits : frame.payload.length ≤ Frame.sizeLimit) :
    Modest (accept started frame) := by
  unfold accept
  cases frame.opcode with
  | continuation => exact modest_resume small
  | text => exact modest_start .text small fits
  | binary => exact modest_start .binary small fits
  | close => exact modest_read small fits fun _ closed => size_le_of_closeMessage closed
  | ping => exact modest_message small fits
  | pong => exact modest_message small fits

end Modest

/-- Reading a buffer keeps the fragments small, and finds messages that fit. -/
theorem small_of_drain {earlier messages : List Message} {started : Option Started}
    {buffer : Octets} {last : Decoder}
    (outcome : drain earlier started buffer = (.ok messages, last)) (small : Small started)
    (fits : ∀ message ∈ earlier, message.Fits) :
    Small last.started ∧ ∀ message ∈ messages, message.Fits := by
  -- Every frame that is taken from the buffer hands small fragments to the next.
  induction earlier, started, buffer using drain.induct with
  | case1 earlier started buffer violation refused =>
    rw [drain_of_error refused] at outcome
    cases outcome
  | case2 earlier started buffer incomplete =>
    rw [drain_of_incomplete incomplete] at outcome
    cases outcome
    exact ⟨small, fun message mem => fits message (List.mem_reverse.mp mem)⟩
  | case3 earlier started buffer frame rest found next violation refused =>
    rw [drain_of_frame found, refused] at outcome
    cases outcome
  | case4 earlier started buffer frame rest found next accepted inductionHypothesis =>
    have modest := modest_accept small (Frame.length_payload_le_of_parse found)
    rw [accepted] at modest
    rw [drain_of_frame found, accepted] at outcome
    exact inductionHypothesis outcome modest.started fits
  | case5 earlier started buffer frame rest found next message accepted inductionHypothesis =>
    have modest := modest_accept small (Frame.length_payload_le_of_parse found)
    rw [accepted] at modest
    rw [drain_of_frame found, accepted] at outcome
    exact inductionHypothesis outcome modest.started
      (List.forall_mem_cons.mpr ⟨modest.message message rfl, fits⟩)

/-- A decoder between two feeds holds less than the largest frame, and fragments of a text or of a
binary message that are no larger together than a message may be. What it holds of frames is neither
complete nor a violation. -/
structure Bounded (decoder : Decoder) : Prop where
  buffer : decoder.buffer.length ≤ Frame.sizeLimit + 13
  started : ∀ started ∈ decoder.started, started.gathered.length ≤ Frame.sizeLimit
  unread : Frame.parse decoder.buffer = .ok none
  incomplete : ∀ frame : RawFrame, ¬ frame.octets <+: decoder.buffer

/-- The parser has something to say of every complete frame. -/
theorem parse_ne_of_prefix {frame : RawFrame} {buffer : Octets} (leads : frame.octets <+: buffer) :
    Frame.parse buffer ≠ .ok none := by
  obtain ⟨rest, rfl⟩ := leads
  rw [frame.parse_octets]
  repeat' split
  all_goals simp

theorem bounded_of_small {decoder : Decoder} (unread : Frame.parse decoder.buffer = .ok none)
    (small : Small decoder.started) : Bounded decoder where
  buffer := Frame.length_le_of_incomplete unread
  started := small
  unread := unread
  incomplete := fun _ leads => parse_ne_of_prefix leads unread

/-- A feed keeps a decoder bounded, and its messages fit. -/
theorem bounded_feed {decoder next : Decoder} {data : Octets} {messages : List Message}
    (bounded : Bounded decoder) (fed : decoder.feed data = (.ok messages, next)) :
    Bounded next ∧ ∀ message ∈ messages, message.Fits := by
  obtain ⟨small, fits⟩ := small_of_drain fed bounded.started (List.forall_mem_nil _)
  exact ⟨bounded_of_small (parse_buffer_of_drain fed) small, fits⟩

end Reassembly

namespace Delimited

/-- A decoder between two feeds holds at most a start mark and the octets of the largest message. It
has searched them all for an end mark, and there is none. -/
structure Bounded (decoder : Decoder) : Prop where
  buffer : decoder.buffer.length ≤ Frame.sizeLimit + 1
  marked : decoder.buffer = [] ∨ decoder.buffer.head? = some startMark
  unended : endMark ∉ decoder.buffer
  searched : decoder.searched = decoder.buffer.length ∨
    decoder.buffer = [] ∧ decoder.searched = 0

/-- No text of a stream is too large. -/
theorem length_le_of_split {stream : Octets} {read : Splitting} (whole : split stream = .ok read) :
    ∀ text ∈ read.texts, (Utf8.encode text).length ≤ Frame.sizeLimit := by
  induction stream using stream_induction generalizing read with
  | nothing =>
    rw [split] at whole
    cases whole
    exact List.forall_mem_nil _
  | unmarked first rest other =>
    rw [split_of_unmarked other] at whole
    cases whole
  | unfinished payload absent =>
    by_cases big : payload.length > Frame.sizeLimit
    · have refused := split_of_tooBig absent big []
      rw [List.append_nil, whole] at refused
      cases refused
    · rw [split_of_unfinished absent big] at whole
      cases whole
      exact List.forall_mem_nil _
  | message payload later absent inductionHypothesis =>
    by_cases big : payload.length > Frame.sizeLimit
    · rw [split_of_tooBig absent big] at whole
      cases whole
    · rw [split_of_message absent big] at whole
      cases decoded : Utf8.decode? payload with
      | none =>
        rw [decoded] at whole
        cases whole
      | some text =>
        simp only [decoded] at whole
        rcases rest : split later with code | last
        · rw [rest] at whole
          cases whole
        · rw [rest] at whole
          cases whole
          refine List.forall_mem_cons.mpr ⟨?_, inductionHypothesis rest⟩
          rw [← Utf8.decode?_eq_some_iff.mp decoded]
          exact Nat.le_of_not_gt big

/-- A stream that is an unfinished message has its start mark and is not too large. -/
theorem unfinished_of_split {stream : Octets} (whole : split stream = .ok ⟨[], stream⟩) :
    stream.length ≤ Frame.sizeLimit + 1 ∧ (stream = [] ∨ stream.head? = some startMark) := by
  have unended := (split_unfinished whole).2
  cases stream using stream_induction with
  | nothing => exact ⟨Nat.zero_le _, .inl rfl⟩
  | unmarked first rest other =>
    rw [split_of_unmarked other] at whole
    cases whole
  | unfinished payload absent =>
    refine ⟨?_, .inr rfl⟩
    by_contra big
    have refused := split_of_tooBig absent (by simpa using big) []
    rw [List.append_nil, whole] at refused
    cases refused
  | message payload later absent => simp at unended

theorem Settled.bounded {decoder : Decoder} (settled : Settled decoder) : Bounded decoder where
  buffer := (unfinished_of_split settled.1).1
  marked := (unfinished_of_split settled.1).2
  unended := (split_unfinished settled.1).2
  searched := .inl settled.2

/-- A feed leaves a decoder settled, and its messages fit. -/
theorem settled_feed {decoder next : Decoder} {data : Octets} {messages : List Message}
    (settled : Settled decoder) (fed : decoder.feed data = (.ok messages, next)) :
    Settled next ∧ ∀ message ∈ messages, message.Fits := by
  obtain ⟨read, whole, rfl, rfl⟩ := (feed_eq_ok_iff settled).mp fed
  refine ⟨⟨(split_unfinished whole).1, rfl⟩, fun message mem => ?_⟩
  obtain ⟨text, inside, rfl⟩ := List.mem_map.mp mem
  exact length_le_of_split whole text inside

end Delimited

/-- However a stream is cut into chunks, when all of them have been accepted the decoder of either
framing is bounded, and no message that it has found is larger than the limit. -/
theorem memory_bounded (chunks : List Octets) :
    (∀ accepted last,
      Feeding.transcript Reassembly.Decoder.feed .fresh chunks = ⟨accepted, none, last⟩ →
        Reassembly.Bounded last ∧ ∀ message ∈ accepted.flatten, message.size ≤ Frame.sizeLimit) ∧
    ∀ accepted last,
      Feeding.transcript Delimited.Decoder.feed .fresh chunks = ⟨accepted, none, last⟩ →
        Delimited.Bounded last ∧ ∀ message ∈ accepted.flatten, message.size ≤ Frame.sizeLimit := by
  constructor
  · intro accepted last run
    have fresh : Reassembly.Bounded .fresh := Reassembly.bounded_of_small rfl Reassembly.small_none
    exact Feeding.kept_of_transcript Reassembly.bounded_feed fresh run
  · intro accepted last run
    obtain ⟨settled, fits⟩ :=
      Feeding.kept_of_transcript Delimited.settled_feed Delimited.settled_fresh run
    exact ⟨settled.bounded, fits⟩

/-- Two reads in either framing end behind a first fragment with half a header after it, and within a
text. -/
theorem memory_bounded_midMessage :
    (Feeding.transcript Reassembly.Decoder.feed .fresh
          [[0x01, 0x82, 0, 0, 0, 0, 0x68], [0x69, 0x80]] =
        ⟨[[], []], none, [0x80], some ⟨.text, [0x68, 0x69]⟩⟩ ∧
      Reassembly.Bounded ⟨[0x80], some ⟨.text, [0x68, 0x69]⟩⟩) ∧
    Feeding.transcript Delimited.Decoder.feed .fresh [[0x00, 0x68], [0x69]] =
        ⟨[[], []], none, [0x00, 0x68, 0x69], 3⟩ ∧
      Delimited.Bounded ⟨[0x00, 0x68, 0x69], 3⟩ := by
  have framed : Feeding.transcript Reassembly.Decoder.feed .fresh
      [[0x01, 0x82, 0, 0, 0, 0, 0x68], [0x69, 0x80]] =
        ⟨[[], []], none, [0x80], some ⟨.text, [0x68, 0x69]⟩⟩ := by
    have first : Reassembly.Decoder.fresh.feed [0x01, 0x82, 0, 0, 0, 0, 0x68] =
        (.ok [], ⟨[0x01, 0x82, 0, 0, 0, 0, 0x68], none⟩) :=
      Reassembly.drain_of_incomplete rfl [] none
    have second : Reassembly.Decoder.feed ⟨[0x01, 0x82, 0, 0, 0, 0, 0x68], none⟩ [0x69, 0x80] =
        (.ok [], ⟨[0x80], some ⟨.text, [0x68, 0x69]⟩⟩) := by
      have found : Frame.parse [0x01, 0x82, 0, 0, 0, 0, 0x68, 0x69, 0x80] =
          .ok (some (⟨.text, false, [0x68, 0x69]⟩, [0x80])) := rfl
      have incomplete : Frame.parse [0x80] = .ok none := rfl
      exact (Reassembly.drain_of_frame found [] none).trans
        (Reassembly.drain_of_incomplete incomplete [] _)
    simp only [Feeding.transcript, first, second]
  have marked : Feeding.transcript Delimited.Decoder.feed .fresh [[0x00, 0x68], [0x69]] =
      ⟨[[], []], none, [0x00, 0x68, 0x69], 3⟩ := by
    have half : Delimited.split [0x00, 0x68] = .ok ⟨[], [0x00, 0x68]⟩ :=
      Delimited.split_of_unfinished (by decide) (by decide)
    have whole : Delimited.split [0x00, 0x68, 0x69] = .ok ⟨[], [0x00, 0x68, 0x69]⟩ :=
      Delimited.split_of_unfinished (by decide) (by decide)
    have first : Delimited.Decoder.fresh.feed [0x00, 0x68] = (.ok [], ⟨[0x00, 0x68], 2⟩) :=
      (Delimited.feed_eq_ok_iff Delimited.settled_fresh).mpr ⟨_, half, rfl, rfl⟩
    have second : Delimited.Decoder.feed ⟨[0x00, 0x68], 2⟩ [0x69] =
        (.ok [], ⟨[0x00, 0x68, 0x69], 3⟩) :=
      (Delimited.feed_eq_ok_iff ⟨half, rfl⟩).mpr ⟨_, whole, rfl, rfl⟩
    simp only [Feeding.transcript, first, second]
  exact ⟨⟨framed, ((memory_bounded _).1 _ _ framed).1⟩, marked, ((memory_bounded _).2 _ _ marked).1⟩

end CashHerald.Wire
