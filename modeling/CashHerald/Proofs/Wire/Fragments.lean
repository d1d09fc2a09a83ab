import CashHerald.Proofs.Wire.Chunks
import CashHerald.Proofs.Wire.RawFrame

/-!
Messages put together from complete frames. A frame must pass its checks in their order, and the
first one that fails names the close code. Main statement: a feed of complete frames succeeds exactly
if every frame passes, and then returns each control message at the place of its frame and each data
message at the place of its last fragment.
-/

namespace CashHerald.Wire.Reassembly

/-- A check of a frame, with the close code that answers a frame that fails it. -/
structure Check where
  passed : Bool
  code : UInt16
  deriving DecidableEq, Repr

/-- The close code of the first check that fails. -/
def verdict? (checks : List Check) : Option UInt16 :=
  (checks.find? fun check => !check.passed).map Check.code

@[simp] theorem verdict?_nil : verdict? [] = none := rfl

@[simp] theorem verdict?_cons (check : Check) (rest : List Check) :
    verdict? (check :: rest) = if check.passed then verdict? rest else some check.code := by
  simp only [verdict?, List.find?_cons]
  cases check.passed <;> rfl

theorem verdict?_append (first second : List Check) :
    verdict? (first ++ second) = (verdict? first).or (verdict? second) := by
  simp only [verdict?, List.find?_append]
  cases first.find? fun check => !check.passed <;> rfl

/-- The fragments of the message that is in progress behind the frames. -/
def inProgress (frames : List RawFrame) : List RawFrame :=
  (frames.filter fun frame => !frame.isControl).rtakeWhile fun frame => !frame.fin

/-- The payload of a message up to a fragment. -/
def joined (fragments : List RawFrame) (frame : RawFrame) : Octets :=
  (fragments ++ [frame]).flatMap RawFrame.payload

/-- The first fragment of a message says whether it is a text. -/
def isText (fragments : List RawFrame) (frame : RawFrame) : Bool :=
  ((fragments ++ [frame]).head?.map fun first => first.opcode.val) = some 1

def isUtf8 (payload : Octets) : Bool :=
  (Utf8.decode? payload).isSome

/-- The code that a close frame's payload starts with. -/
def closeCode (payload : Octets) : UInt16 :=
  UInt16.ofNat (Octets.ofBigEndian (payload.take 2))

/-- The checks of a frame by itself. -/
def headerChecks (frame : RawFrame) : List Check :=
  [⟨frame.reserved.val = 0, 1002⟩,
    ⟨frame.opcode.val ∈ [0, 1, 2, 8, 9, 10], 1002⟩,
    ⟨frame.mask.isSome, 1002⟩,
    ⟨frame.isControl → frame.fin, 1002⟩,
    ⟨frame.isControl → frame.payload.length ≤ 125, 1002⟩,
    ⟨frame.payload.length ≤ Frame.sizeLimit, 1009⟩]

/-- The checks of a frame's place behind the fragments of the message in progress. -/
def placeChecks (fragments : List RawFrame) (frame : RawFrame) : List Check :=
  [⟨frame.opcode.val = 1 ∨ frame.opcode.val = 2 → fragments.isEmpty, 1002⟩,
    ⟨frame.opcode.val = 0 → !fragments.isEmpty, 1002⟩,
    ⟨frame.opcode.val = 0 → (joined fragments frame).length ≤ Frame.sizeLimit, 1009⟩]

/-- The checks of the message that a frame completes. -/
def contentChecks (fragments : List RawFrame) (frame : RawFrame) : List Check :=
  [⟨!frame.isControl ∧ frame.fin ∧ isText fragments frame → isUtf8 (joined fragments frame), 1007⟩,
    ⟨frame.opcode.val = 8 → frame.payload = [] ∨
      2 ≤ frame.payload.length ∧ CloseCode.isSendable (closeCode frame.payload), 1002⟩,
    ⟨frame.opcode.val = 8 → isUtf8 (frame.payload.drop 2), 1007⟩]

/-- All checks of a frame, in their order. -/
def checks (fragments : List RawFrame) (frame : RawFrame) : List Check :=
  headerChecks frame ++ (placeChecks fragments frame ++ contentChecks fragments frame)

/-- The message that a frame completes. -/
def message? (fragments : List RawFrame) (frame : RawFrame) : Option Message :=
  if frame.opcode.val = 8 then
    some (.close (if frame.payload = [] then none else some (closeCode frame.payload)))
  else if frame.opcode.val = 9 then some (.ping frame.payload)
  else if frame.opcode.val = 10 then some (.pong frame.payload)
  else if frame.fin = false then none
  else if isText fragments frame then (Utf8.decode? (joined fragments frame)).map .text
  else some (.binary (joined fragments frame))

/-- The fragments in progress behind one more frame. -/
def advance (fragments : List RawFrame) (frame : RawFrame) : List RawFrame :=
  if frame.isControl then fragments else if frame.fin then [] else fragments ++ [frame]

theorem inProgress_append (frames : List RawFrame) (frame : RawFrame) :
    inProgress (frames ++ [frame]) = advance (inProgress frames) frame := by
  unfold inProgress advance
  cases control : frame.isControl with
  | true => simp [control]
  | false =>
    rw [List.filter_append]
    simp only [List.filter_cons, control, Bool.not_false, if_true, List.filter_nil,
      List.rtakeWhile_concat]
    cases frame.fin <;> simp

/-- The message in progress, as a decoder holds it. -/
def gather : List RawFrame → Option Started
  | [] => none
  | first :: later =>
    some ⟨if first.opcode.val = 1 then .text else .binary,
      (first :: later).flatMap RawFrame.payload⟩

theorem gather_append (fragments : List RawFrame) (frame : RawFrame) :
    gather (fragments ++ [frame]) =
      some ⟨if isText fragments frame then .text else .binary, joined fragments frame⟩ := by
  cases fragments <;> simp [gather, isText, joined]

/-- The outcome of a frame: one that passes its checks has the expected outcome, and one that fails
is answered with the code of the check. -/
def Answers (verdict : Option UInt16)
    (expected outcome : Option Started × Except Violation (Option Message)) : Prop :=
  match verdict with
  | none => outcome = expected
  | some code => ∃ violation last, outcome = (last, .error violation) ∧ violation.code = code

theorem Answers.or {first second : Option UInt16}
    {middle expected outcome : Option Started × Except Violation (Option Message)}
    (earlier : Answers first middle outcome) (later : Answers second expected middle) :
    Answers (first.or second) expected outcome := by
  cases first with
  | none =>
    have same : outcome = middle := earlier
    rw [same]
    exact later
  | some code => exact earlier

/-- What becomes of a data frame that stands in its place. -/
def delivery (fragments : List RawFrame) (frame : RawFrame) :
    Option Started × Except Violation (Option Message) :=
  if frame.fin then
    (none, (complete (if isText fragments frame then .text else .binary)
      (joined fragments frame)).map some)
  else (gather (fragments ++ [frame]), .ok none)

theorem delivery_answers (fragments : List RawFrame) {frame : RawFrame}
    (data : frame.isControl = false) :
    Answers (verdict? (contentChecks fragments frame))
      (gather (advance fragments frame), .ok (message? fragments frame))
      (delivery fragments frame) := by
  have small : ¬ 8 ≤ frame.opcode.val := by simpa [RawFrame.isControl] using data
  have notClose : frame.opcode.val ≠ 8 := by omega
  have notPing : frame.opcode.val ≠ 9 := by omega
  have notPong : frame.opcode.val ≠ 10 := by omega
  unfold delivery message? advance
  rw [if_neg notClose, if_neg notPing, if_neg notPong, data]
  simp only [contentChecks, verdict?_cons, verdict?_nil, notClose, data]
  cases fin : frame.fin with
  | false => simp [Answers]
  | true =>
    cases text : isText fragments frame with
    | false => simp [Answers, complete, gather, Except.map]
    | true =>
      cases read : Utf8.decode? (joined fragments frame) with
      | none =>
        simp [Answers, complete, Except.map, isUtf8, read, Violation.code, CloseCode.invalidPayload]
      | some content => simp [Answers, complete, gather, Except.map, isUtf8, read]

/-- A first fragment is delivered or gathered if no message is in progress. -/
theorem start_answers (fragments : List RawFrame) {frame : RawFrame} {content : Content}
    (opcode : Opcode) (first : frame.opcode.val = 1 ∧ content = .text ∨
      frame.opcode.val = 2 ∧ content = .binary) :
    Answers (verdict? (placeChecks fragments frame)) (delivery fragments frame)
      (start content (gather fragments) ⟨opcode, frame.fin, frame.payload⟩) := by
  have number : frame.opcode.val = 1 ∨ frame.opcode.val = 2 := first.imp And.left And.left
  have later : frame.opcode.val ≠ 0 := by omega
  cases fragments with
  | nil =>
    have passed : verdict? (placeChecks [] frame) = none := by simp [placeChecks, later]
    have kind : (if isText [] frame then Content.text else .binary) = content := by
      rcases first with ⟨one, rfl⟩ | ⟨two, rfl⟩ <;> simp [isText, *]
    have payload : joined [] frame = frame.payload := by simp [joined]
    rw [passed, Answers, delivery, gather_append, kind, payload]
    rfl
  | cons earlier others =>
    have failed : verdict? (placeChecks (earlier :: others) frame) = some 1002 := by
      simp [placeChecks, number]
    rw [failed]
    exact ⟨.unexpectedStart, _, rfl, rfl⟩

/-- A later fragment is delivered or gathered if its message is in progress and stays small. -/
theorem resume_answers (fragments : List RawFrame) {frame : RawFrame} (opcode : Opcode)
    (number : frame.opcode.val = 0) :
    Answers (verdict? (placeChecks fragments frame)) (delivery fragments frame)
      (resume (gather fragments) ⟨opcode, frame.fin, frame.payload⟩) := by
  cases fragments with
  | nil =>
    have failed : verdict? (placeChecks [] frame) = some 1002 := by simp [placeChecks, number]
    rw [failed]
    exact ⟨.unexpectedContinuation, none, rfl, rfl⟩
  | cons first others =>
    have kind : (if isText (first :: others) frame then Content.text else .binary) =
        if first.opcode.val = 1 then .text else .binary := by
      simp [isText]
    have payload : (first :: others).flatMap RawFrame.payload ++ frame.payload =
        joined (first :: others) frame := by
      simp [joined]
    by_cases small : (joined (first :: others) frame).length ≤ Frame.sizeLimit
    · have passed : verdict? (placeChecks (first :: others) frame) = none := by
        simp [placeChecks, number, small]
      rw [passed, Answers, delivery, gather_append, kind]
      simp only [gather, resume, payload]
      rw [if_neg (by omega)]
    · have failed : verdict? (placeChecks (first :: others) frame) = some 1009 := by
        simp [placeChecks, number, small]
      rw [failed]
      refine ⟨.messageTooBig (joined (first :: others) frame).length, none, ?_, rfl⟩
      simp only [gather, resume, payload]
      rw [if_pos (by omega)]

theorem isUtf8_nil : isUtf8 [] = true := by
  rw [isUtf8, Utf8.decode?_eq_some_iff.mpr (show [] = Utf8.encode "" from rfl)]
  rfl

theorem closeMessage_answers (started : Option Started) {fragments : List RawFrame}
    {frame : RawFrame} (number : frame.opcode.val = 8) :
    Answers (verdict? (contentChecks fragments frame)) (started, .ok (message? fragments frame))
      (started, (closeMessage frame.payload).map some) := by
  have control : frame.isControl = true := by simp [RawFrame.isControl, number]
  simp only [contentChecks, verdict?_cons, verdict?_nil, message?, number, control]
  match frame.payload with
  | [] => simp [Answers, closeMessage, isUtf8_nil, Except.map]
  | [_] =>
    simp [Answers, closeMessage, Except.map, Violation.code, CloseCode.protocolError]
  | high :: low :: reason =>
    have code : closeCode (high :: low :: reason) =
        UInt16.ofNat (Octets.ofBigEndian [high, low]) := rfl
    cases sendable : CloseCode.isSendable (closeCode (high :: low :: reason)) with
    | false =>
      rw [code] at sendable
      simp [Answers, closeMessage, Except.map, sendable, Violation.code, CloseCode.protocolError]
    | true =>
      rw [code] at sendable
      cases read : Utf8.decode? reason with
      | none =>
        simp [Answers, closeMessage, Except.map, sendable, isUtf8, read, Violation.code,
          CloseCode.invalidPayload]
      | some text =>
        simp [Answers, closeMessage, Except.map, code, sendable, isUtf8, read]

/-- The opcode of a control frame has no check of its place. -/
theorem placeChecks_control (fragments : List RawFrame) {frame : RawFrame}
    (control : frame.isControl = true) : verdict? (placeChecks fragments frame) = none := by
  have high : 8 ≤ frame.opcode.val := by simpa [RawFrame.isControl] using control
  have notZero : frame.opcode.val ≠ 0 := by omega
  have notOne : frame.opcode.val ≠ 1 := by omega
  have notTwo : frame.opcode.val ≠ 2 := by omega
  simp [placeChecks, notZero, notOne, notTwo]

/-- A frame is accepted as its place and its content demand. -/
theorem accept_answers (fragments : List RawFrame) {frame : RawFrame} {opcode : Opcode}
    (known : frame.kind? = some opcode) :
    Answers (verdict? (placeChecks fragments frame ++ contentChecks fragments frame))
      (gather (advance fragments frame), .ok (message? fragments frame))
      (accept (gather fragments) ⟨opcode, frame.fin, frame.payload⟩) := by
  have number := RawFrame.opcode_of_kind? known
  rw [verdict?_append]
  cases opcode with
  | continuation =>
    have zero : frame.opcode.val = 0 := number
    have data : frame.isControl = false := by simp [RawFrame.isControl, zero]
    exact (resume_answers fragments .continuation zero).or (delivery_answers fragments data)
  | text =>
    have one : frame.opcode.val = 1 := number
    have data : frame.isControl = false := by simp [RawFrame.isControl, one]
    exact (start_answers fragments .text (.inl ⟨one, rfl⟩)).or (delivery_answers fragments data)
  | binary =>
    have two : frame.opcode.val = 2 := number
    have data : frame.isControl = false := by simp [RawFrame.isControl, two]
    exact (start_answers fragments .binary (.inr ⟨two, rfl⟩)).or (delivery_answers fragments data)
  | close =>
    have eight : frame.opcode.val = 8 := number
    have control : frame.isControl = true := by simp [RawFrame.isControl, eight]
    rw [placeChecks_control fragments control, advance, if_pos control]
    exact closeMessage_answers (gather fragments) eight
  | ping =>
    have nine : frame.opcode.val = 9 := number
    have control : frame.isControl = true := by simp [RawFrame.isControl, nine]
    rw [placeChecks_control fragments control, advance, if_pos control]
    simp [Answers, contentChecks, message?, nine, control, accept]
  | pong =>
    have ten : frame.opcode.val = 10 := number
    have control : frame.isControl = true := by simp [RawFrame.isControl, ten]
    rw [placeChecks_control fragments control, advance, if_pos control]
    simp [Answers, contentChecks, message?, ten, control, accept]

/-- The checks of the header are those of the parser. -/
theorem verdict?_headerChecks (frame : RawFrame) :
    verdict? (headerChecks frame) =
      if frame.reserved.val ≠ 0 then some (1002 : UInt16)
      else
        match frame.kind? with
        | none => some 1002
        | some opcode =>
          if frame.mask = none then some 1002
          else if opcode.isControl ∧ (frame.fin = false ∨ frame.payload.length > 125) then some 1002
          else if frame.payload.length > Frame.sizeLimit then some 1009
          else none := by
  simp only [headerChecks, verdict?_cons, verdict?_nil, ← frame.isSome_kind?]
  by_cases reserved : frame.reserved.val = 0
  · cases kind : frame.kind? with
    | none => simp [reserved]
    | some opcode =>
      simp only [RawFrame.isControl_of_kind? kind]
      cases frame.mask with
      | none => simp [reserved]
      | some mask =>
        by_cases short : frame.payload.length ≤ 125
        · have small : frame.payload.length ≤ Frame.sizeLimit := Nat.le_trans short (by decide)
          cases frame.isControl <;> cases frame.fin <;>
            simp [reserved, short, small, Nat.not_lt.mpr short, Nat.not_lt.mpr small]
        · have long : frame.payload.length > 125 := Nat.not_le.mp short
          by_cases small : frame.payload.length ≤ Frame.sizeLimit
          · cases frame.isControl <;> cases frame.fin <;>
              simp [reserved, short, long, small, Nat.not_lt.mpr small]
          · cases frame.isControl <;> cases frame.fin <;>
              simp [reserved, short, long, small, Nat.not_le.mp small]
  · simp [reserved]

/-- The parser refuses a frame by the first check of its header that fails. -/
theorem parse_answers (frame : RawFrame) (rest : Octets) :
    match verdict? (headerChecks frame) with
    | none => ∃ opcode, frame.kind? = some opcode ∧
        Frame.parse (frame.octets ++ rest) = .ok (some (⟨opcode, frame.fin, frame.payload⟩, rest))
    | some code => ∃ violation, Frame.parse (frame.octets ++ rest) = .error violation ∧
        violation.code = code := by
  rw [frame.parse_octets, verdict?_headerChecks]
  by_cases reserved : frame.reserved.val ≠ 0
  · rw [if_pos reserved, if_pos reserved]
    exact ⟨.reservedBits, rfl, rfl⟩
  · rw [if_neg reserved, if_neg reserved]
    cases frame.kind? with
    | none => exact ⟨_, rfl, rfl⟩
    | some opcode =>
      by_cases unmasked : frame.mask = none
      · simp only [if_pos unmasked]
        exact ⟨.unmasked, rfl, rfl⟩
      · simp only [if_neg unmasked]
        by_cases malformed : opcode.isControl ∧ (frame.fin = false ∨ frame.payload.length > 125)
        · simp only [if_pos malformed]
          exact ⟨.malformedControl, rfl, rfl⟩
        · simp only [if_neg malformed]
          by_cases big : frame.payload.length > Frame.sizeLimit
          · simp only [if_pos big]
            exact ⟨.frameTooBig frame.payload.length, rfl, rfl⟩
          · simp only [if_neg big]
            exact ⟨opcode, rfl, rfl⟩

/-- A feed of one complete frame, when whole frames have come before. -/
theorem feed_octets (fragments : List RawFrame) (frame : RawFrame) :
    match verdict? (checks fragments frame) with
    | none => Decoder.feed ⟨[], gather fragments⟩ frame.octets =
        (.ok (message? fragments frame).toList, ⟨[], gather (advance fragments frame)⟩)
    | some code => ∃ violation last,
        Decoder.feed ⟨[], gather fragments⟩ frame.octets = (.error violation, last) ∧
          violation.code = code := by
  have header := parse_answers frame []
  rw [List.append_nil] at header
  have feed : Decoder.feed ⟨[], gather fragments⟩ frame.octets =
      drain [] (gather fragments) frame.octets := rfl
  rw [checks, verdict?_append, feed]
  cases first : verdict? (headerChecks frame) with
  | some code =>
    rw [first] at header
    obtain ⟨violation, refused, same⟩ := header
    exact ⟨violation, _, drain_of_error refused _ _, same⟩
  | none =>
    rw [first] at header
    obtain ⟨opcode, known, parsed⟩ := header
    have place := accept_answers fragments known
    rw [Option.none_or, drain_of_frame parsed]
    cases second : verdict? (placeChecks fragments frame ++ contentChecks fragments frame) with
    | some code =>
      rw [second] at place
      obtain ⟨violation, last, refused, same⟩ := place
      rw [refused]
      exact ⟨violation, _, rfl, same⟩
    | none =>
      rw [second, Answers] at place
      rw [place]
      simp only [List.append_nil]
      rw [drain_of_incomplete rfl]
      cases message? fragments frame <;> rfl

/-- Every frame passes its checks behind the frames before it. -/
def AllPass (frames : List RawFrame) : Prop :=
  ∀ earlier frame later, frames = earlier ++ frame :: later →
    ∀ check ∈ checks (inProgress earlier) frame, check.passed

/-- The messages that the frames complete, each at the place of the frame that completes it. -/
def delivered (frames : List RawFrame) : List Message :=
  (frames.mapIdx fun place frame =>
    message? (inProgress (frames.take place)) frame).reduceOption

theorem verdict?_eq_none_iff {checks : List Check} :
    verdict? checks = none ↔ ∀ check ∈ checks, check.passed := by
  simp [verdict?]

theorem allPass_nil : AllPass [] := by
  intro earlier frame later cut
  simp at cut

theorem allPass_append_iff {frames : List RawFrame} {frame : RawFrame} :
    AllPass (frames ++ [frame]) ↔
      AllPass frames ∧ verdict? (checks (inProgress frames) frame) = none := by
  rw [verdict?_eq_none_iff]
  constructor
  · intro pass
    constructor
    · intro earlier middle later cut
      exact pass earlier middle (later ++ [frame]) (by simp [cut])
    · exact pass frames frame [] rfl
  · intro pass earlier middle later cut
    obtain ⟨passEarlier, passLast⟩ := pass
    rcases List.eq_nil_or_concat later with rfl | ⟨others, last, rfl⟩
    · obtain ⟨rfl, same⟩ := List.append_inj' cut rfl
      cases same
      exact passLast
    · have inside : frames = earlier ++ middle :: others := by
        have shifted : frames ++ [frame] = (earlier ++ middle :: others) ++ [last] := by
          simpa using cut
        exact (List.append_inj' shifted rfl).1
      exact passEarlier earlier middle others inside

theorem delivered_append (frames : List RawFrame) (frame : RawFrame) :
    delivered (frames ++ [frame]) =
      delivered frames ++ (message? (inProgress frames) frame).toList := by
  have inside : (frames.mapIdx fun place other =>
      message? (inProgress ((frames ++ [frame]).take place)) other) =
      frames.mapIdx fun place other => message? (inProgress (frames.take place)) other := by
    apply List.ext_getElem
    · simp
    · intro place bound _
      have before : place ≤ frames.length := by
        rw [List.length_mapIdx] at bound
        omega
      simp only [List.getElem_mapIdx, List.take_append_of_le_length before]
  rw [delivered, List.mapIdx_concat, inside, List.take_left]
  cases message? (inProgress frames) frame <;> simp [delivered, List.reduceOption]

/-- Frames that pass are read to their end. -/
theorem feed_passing {frames : List RawFrame} (pass : AllPass frames) :
    Decoder.fresh.feed (frames.flatMap RawFrame.octets) =
      (.ok (delivered frames), ⟨[], gather (inProgress frames)⟩) := by
  -- The last frame is read by a decoder that holds the fragments of all frames before it.
  induction frames using List.reverseRecOn with
  | nil => exact drain_of_incomplete rfl [] none
  | append_singleton frames frame inductionHypothesis =>
    obtain ⟨passEarlier, passLast⟩ := allPass_append_iff.mp pass
    have step := feed_octets (inProgress frames) frame
    rw [passLast] at step
    rw [List.flatMap_append, List.flatMap_singleton, Decoder.feed_append,
      inductionHypothesis passEarlier]
    simp only
    rw [step, delivered_append, inProgress_append]
    rfl

/-- If not every frame passes, there is a first one that fails. -/
theorem exists_first_failure {frames : List RawFrame} (failing : ¬ AllPass frames) :
    ∃ earlier frame later code, frames = earlier ++ frame :: later ∧ AllPass earlier ∧
      verdict? (checks (inProgress earlier) frame) = some code := by
  induction frames using List.reverseRecOn with
  | nil => exact absurd allPass_nil failing
  | append_singleton frames frame inductionHypothesis =>
    by_cases pass : AllPass frames
    · cases verdict : verdict? (checks (inProgress frames) frame) with
      | none => exact absurd (allPass_append_iff.mpr ⟨pass, verdict⟩) failing
      | some code => exact ⟨frames, frame, [], code, rfl, pass, verdict⟩
    · obtain ⟨earlier, middle, later, code, rfl, passEarlier, verdict⟩ := inductionHypothesis pass
      exact ⟨earlier, middle, later ++ [frame], code, by simp, passEarlier, verdict⟩

/-- The first frame that fails ends the feed with the code of its first failing check. -/
theorem feed_failing {earlier : List RawFrame} {frame : RawFrame} {code : UInt16}
    (pass : AllPass earlier) (verdict : verdict? (checks (inProgress earlier) frame) = some code)
    (later : List RawFrame) :
    ∃ violation last,
      Decoder.fresh.feed ((earlier ++ frame :: later).flatMap RawFrame.octets) =
        (.error violation, last) ∧ violation.code = code := by
  have step := feed_octets (inProgress earlier) frame
  rw [verdict] at step
  obtain ⟨violation, last, refused, same⟩ := step
  refine ⟨violation, ⟨last.buffer ++ later.flatMap RawFrame.octets, last.started⟩, ?_, same⟩
  rw [List.flatMap_append, List.flatMap_cons, Decoder.feed_append, feed_passing pass]
  simp only
  rw [Decoder.feed_append, refused]
  rfl

/-- A feed of complete frames succeeds exactly if every frame passes its checks. It then returns the
control messages at the places of their frames and each data message at the place of its last
fragment. Otherwise it ends with the code of the first failing check of the first failing frame. -/
theorem feed_frames (frames : List RawFrame) :
    ((∃ messages last, Decoder.fresh.feed (frames.flatMap RawFrame.octets) = (.ok messages, last)) ↔
      AllPass frames) ∧
    match Decoder.fresh.feed (frames.flatMap RawFrame.octets) with
    | (.ok messages, last) =>
      messages = delivered frames ∧ last = ⟨[], gather (inProgress frames)⟩
    | (.error violation, _) =>
      ∃ earlier frame later, frames = earlier ++ frame :: later ∧ AllPass earlier ∧
        verdict? (checks (inProgress earlier) frame) = some violation.code := by
  by_cases pass : AllPass frames
  · rw [feed_passing pass]
    exact ⟨⟨fun _ => pass, fun _ => ⟨_, _, rfl⟩⟩, rfl, rfl⟩
  · obtain ⟨earlier, frame, later, code, rfl, passEarlier, verdict⟩ := exists_first_failure pass
    obtain ⟨violation, last, refused, rfl⟩ := feed_failing passEarlier verdict later
    rw [refused]
    refine ⟨⟨?_, fun accepted => absurd accepted pass⟩, earlier, frame, later, rfl, passEarlier,
      verdict⟩
    intro accepted
    obtain ⟨messages, other, impossible⟩ := accepted
    cases impossible

end CashHerald.Wire.Reassembly
