import CashHerald.Proofs.Text.Encoding
import CashHerald.Proofs.Wire.Transcript
import CashHerald.Wire.Delimited

/-!
The older framing without a memory of how far the end mark has been searched. A stream is split from
its start into texts between marks. Main statements: splitting goes on where it stopped when octets
are added, a decoder finds in every chunk what splitting the stream so far finds, and texts that are
written one after the other are read back from any chunks.
-/

namespace CashHerald.Wire.Delimited

/-- The texts of a stream, and the octets behind the last end mark. -/
structure Splitting where
  texts : List String
  unfinished : Octets
  deriving DecidableEq, Repr

/-- The splitting of a stream in which some texts come first. -/
def Splitting.behind (texts : List String) (read : Splitting) : Splitting :=
  ⟨texts ++ read.texts, read.unfinished⟩

/-- Splits a stream into texts, each from a start mark up to the next end mark. A message that does
not start with its mark, is too big or is no text ends the splitting with a close code. -/
def split : Octets → Except UInt16 Splitting
  | [] => .ok ⟨[], []⟩
  | first :: body =>
    if first ≠ startMark then .error CloseCode.invalidPayload
    else if (body.takeWhile (· ≠ endMark)).length > Frame.sizeLimit then
      .error CloseCode.messageTooBig
    else
      match _ended : body.dropWhile (· ≠ endMark) with
      | [] => .ok ⟨[], first :: body⟩
      | _ :: later =>
        match Utf8.decode? (body.takeWhile (· ≠ endMark)) with
        | none => .error CloseCode.invalidPayload
        | some text => (split later).map (.behind [text])
termination_by stream => stream.length
decreasing_by
  have shorter := (List.dropWhile_sublist (· ≠ endMark) (l := body)).length_le
  rw [_ended, List.length_cons] at shorter
  rw [List.length_cons]
  omega

/-- Every stream is empty, starts without a mark, or starts with a message that has ended or not. -/
@[elab_as_elim]
theorem stream_induction {motive : Octets → Prop} (nothing : motive [])
    (unmarked : ∀ first rest, first ≠ startMark → motive (first :: rest))
    (unfinished : ∀ payload, endMark ∉ payload → motive (startMark :: payload))
    (message : ∀ payload later, endMark ∉ payload → motive later →
      motive (startMark :: (payload ++ endMark :: later)))
    (stream : Octets) : motive stream := by
  induction size : stream.length using Nat.strong_induction_on generalizing stream with
  | _ size inductionHypothesis =>
    cases stream with
    | nil => exact nothing
    | cons first body =>
      by_cases marked : first = startMark
      · subst marked
        by_cases ends : endMark ∈ body
        · obtain ⟨payload, later, rfl, absent⟩ := List.eq_append_cons_of_mem ends
          refine message payload later absent (inductionHypothesis later.length ?_ later rfl)
          rw [← size, List.length_cons, List.length_append, List.length_cons]
          omega
        · exact unfinished body ends
      · exact unmarked first body marked

section Payload

variable {payload : Octets}

theorem notMem_cons_startMark (absent : endMark ∉ payload) : endMark ∉ startMark :: payload :=
  List.not_mem_cons_of_ne_of_not_mem (by decide) absent

theorem payload_front (absent : endMark ∉ payload) (back : Octets) :
    (payload ++ back).takeWhile (· ≠ endMark) = payload ++ back.takeWhile (· ≠ endMark) ∧
      (payload ++ back).dropWhile (· ≠ endMark) = back.dropWhile (· ≠ endMark) := by
  have inside : ∀ byte ∈ payload, decide (byte ≠ endMark) = true := by
    intro byte mem
    simpa using ne_of_mem_of_not_mem mem absent
  exact ⟨List.takeWhile_append_of_pos inside, List.dropWhile_append_of_pos inside⟩

theorem split_of_unmarked {first : UInt8} (other : first ≠ startMark) (rest : Octets) :
    split (first :: rest) = .error CloseCode.invalidPayload := by
  rw [split, if_pos other]

/-- A message that is too big is refused whether it has ended or not. -/
theorem split_of_tooBig (absent : endMark ∉ payload) (big : payload.length > Frame.sizeLimit)
    (back : Octets) : split (startMark :: (payload ++ back)) = .error CloseCode.messageTooBig := by
  rw [split, if_neg (by simp), if_pos]
  rw [(payload_front absent back).1, List.length_append]
  omega

theorem split_of_unfinished (absent : endMark ∉ payload)
    (small : ¬ payload.length > Frame.sizeLimit) :
    split (startMark :: payload) = .ok ⟨[], startMark :: payload⟩ := by
  obtain ⟨inside, behind⟩ := payload_front absent []
  rw [List.append_nil, List.takeWhile_nil, List.append_nil] at inside
  rw [List.append_nil, List.dropWhile_nil] at behind
  rw [split, if_neg (by simp), inside, if_neg small]
  split
  · rfl
  · rename_i ended
    rw [behind] at ended
    cases ended

theorem split_of_message (absent : endMark ∉ payload) (small : ¬ payload.length > Frame.sizeLimit)
    (later : Octets) :
    split (startMark :: (payload ++ endMark :: later)) =
      match Utf8.decode? payload with
      | none => .error CloseCode.invalidPayload
      | some text => (split later).map (.behind [text]) := by
  obtain ⟨inside, behind⟩ := payload_front absent (endMark :: later)
  have stops : (endMark :: later).takeWhile (· ≠ endMark) = [] ∧
      (endMark :: later).dropWhile (· ≠ endMark) = endMark :: later := by simp
  rw [stops.1, List.append_nil] at inside
  rw [stops.2] at behind
  rw [split, if_neg (by simp), inside, if_neg small]
  split <;> rename_i ended <;> rw [behind] at ended <;> cases ended
  rfl

end Payload

/-- Splitting goes on where it stopped when octets are added, unless it has met a fault. -/
theorem split_append (front back : Octets) :
    split (front ++ back) =
      match split front with
      | .error code => .error code
      | .ok read => (split (read.unfinished ++ back)).map (.behind read.texts) := by
  have unchanged (outcome : Except UInt16 Splitting) : outcome.map (.behind []) = outcome := by
    cases outcome <;> rfl
  induction front using stream_induction with
  | nothing =>
    rw [split]
    exact (unchanged _).symm
  | unmarked first rest other =>
    rw [List.cons_append, split_of_unmarked other, split_of_unmarked other]
  | unfinished payload absent =>
    by_cases big : payload.length > Frame.sizeLimit
    · have whole := split_of_tooBig absent big []
      rw [List.append_nil] at whole
      rw [List.cons_append, split_of_tooBig absent big, whole]
    · rw [split_of_unfinished absent big]
      exact (unchanged _).symm
  | message payload later absent inductionHypothesis =>
    rw [List.cons_append, List.append_assoc, List.cons_append]
    by_cases big : payload.length > Frame.sizeLimit
    · rw [split_of_tooBig absent big, split_of_tooBig absent big]
    · rw [split_of_message absent big, split_of_message absent big]
      cases Utf8.decode? payload with
      | none => rfl
      | some text =>
        simp only [inductionHypothesis]
        rcases split later with code | read
        · rfl
        · rcases more : split (read.unfinished ++ back) with code | last <;>
            simp [Except.map, more, Splitting.behind]

/-- What is left of a stream is an unfinished message. -/
theorem split_unfinished {stream : Octets} {read : Splitting} (whole : split stream = .ok read) :
    split read.unfinished = .ok ⟨[], read.unfinished⟩ ∧ endMark ∉ read.unfinished := by
  induction stream using stream_induction generalizing read with
  | nothing =>
    rw [split] at whole
    cases whole
    rw [split]
    exact ⟨rfl, List.not_mem_nil⟩
  | unmarked first rest other =>
    rw [split_of_unmarked other] at whole
    cases whole
  | unfinished payload absent =>
    by_cases big : payload.length > Frame.sizeLimit
    · have refused := split_of_tooBig absent big []
      rw [List.append_nil, whole] at refused
      cases refused
    · have same := split_of_unfinished absent big
      rw [whole] at same
      cases same
      exact ⟨whole, notMem_cons_startMark absent⟩
  | message payload later absent inductionHypothesis =>
    by_cases big : payload.length > Frame.sizeLimit
    · rw [split_of_tooBig absent big] at whole
      cases whole
    · rw [split_of_message absent big] at whole
      cases text : Utf8.decode? payload with
      | none =>
        rw [text] at whole
        cases whole
      | some text =>
        simp only [text] at whole
        rcases rest : split later with code | last
        · rw [rest] at whole
          cases whole
        · rw [rest] at whole
          cases whole
          have kept := inductionHypothesis rest
          exact kept

section Search

variable {payload : Octets} {searched : Nat}

/-- The end mark is found wherever the search starts in front of it. -/
theorem findEnd?_of_message (absent : endMark ∉ payload) (within : searched ≤ payload.length)
    (later : Octets) : findEnd? searched (payload ++ endMark :: later) = some payload.length := by
  have rest : (payload.drop searched).findIdx? (· == endMark) = none := by
    rw [List.findIdx?_eq_none_iff]
    intro byte mem
    simpa using ne_of_mem_of_not_mem (List.mem_of_mem_drop mem) absent
  rw [findEnd?, List.drop_append_of_le_length within, List.findIdx?_append, rest,
    List.findIdx?_cons]
  simp
  omega

theorem findEnd?_of_unfinished (absent : endMark ∉ payload) : findEnd? searched payload = none := by
  rw [findEnd?, Option.map_eq_none_iff, List.findIdx?_eq_none_iff]
  intro byte mem
  simpa using ne_of_mem_of_not_mem (List.mem_of_mem_drop mem) absent

end Search

/-- The octets that have been searched are in the buffer and hold no end mark. -/
def Searched (searched : Nat) (buffer : Octets) : Prop :=
  searched ≤ buffer.length ∧ endMark ∉ buffer.take searched

/-- The search goes on in front of the next end mark, since what has been searched holds none. -/
theorem Searched.le_of_marked {searched : Nat} {front back : Octets}
    (clean : Searched searched (front ++ endMark :: back)) : searched ≤ front.length := by
  by_contra beyond
  obtain ⟨more, same⟩ : ∃ more, searched - front.length = more + 1 :=
    ⟨searched - front.length - 1, by omega⟩
  apply clean.2
  rw [List.take_append, same, List.mem_append]
  exact .inr List.mem_cons_self

/-- Reading a buffer splits it: the messages found are its texts, or the violation has the code of
the first message that is none. -/
theorem drain_of_split {searched : Nat} {buffer : Octets} (clean : Searched searched buffer)
    (earlier : List Message) :
    match split buffer with
    | .ok read => drain earlier searched buffer =
        (.ok (earlier.reverse ++ read.texts.map .text),
          ⟨read.unfinished, read.unfinished.length⟩)
    | .error code => ∃ violation last, drain earlier searched buffer = (.error violation, last) ∧
        violation.code = code := by
  induction buffer using stream_induction generalizing earlier searched with
  | nothing =>
    obtain rfl : searched = 0 := Nat.le_zero.mp clean.1
    rw [split, drain]
    simp
  | unmarked first rest other =>
    rw [split_of_unmarked other, drain, if_pos other]
    exact ⟨_, _, rfl, rfl⟩
  | unfinished payload absent =>
    have nowhere : findEnd? searched (startMark :: payload) = none :=
      findEnd?_of_unfinished (notMem_cons_startMark absent)
    rw [drain, if_neg (by simp), nowhere]
    by_cases big : payload.length > Frame.sizeLimit
    · have refused := split_of_tooBig absent big []
      rw [List.append_nil] at refused
      rw [refused]
      exact ⟨_, _, if_pos big, rfl⟩
    · rw [split_of_unfinished absent big]
      simp [big]
  | message payload later absent inductionHypothesis =>
    have marked : endMark ∉ startMark :: payload := notMem_cons_startMark absent
    have within : searched ≤ (startMark :: payload).length := clean.le_of_marked
    have found : findEnd? searched (startMark :: (payload ++ endMark :: later)) =
        some (payload.length + 1) := findEnd?_of_message marked within later
    rw [drain, if_neg (by simp), found]
    simp only [Nat.add_sub_cancel]
    by_cases big : payload.length > Frame.sizeLimit
    · rw [split_of_tooBig absent big, if_pos big]
      exact ⟨_, _, rfl, rfl⟩
    · have front : (payload ++ endMark :: later).take payload.length = payload :=
        List.take_left
      have behind : (payload ++ endMark :: later).drop (payload.length + 1) = later := by
        rw [List.drop_length_add_append]
        rfl
      rw [split_of_message absent big, if_neg big, front, behind]
      cases Utf8.decode? payload with
      | none => exact ⟨_, _, rfl, rfl⟩
      | some text =>
        have rest := inductionHypothesis ⟨Nat.zero_le _, List.not_mem_nil⟩ (.text text :: earlier)
        rcases read : split later with code | read
        · rw [read] at rest
          exact rest
        · rw [read] at rest
          simp only [rest, Except.map, Splitting.behind]
          simp

/-- A decoder between two feeds holds an unfinished message and has searched all of it. -/
def Settled (decoder : Decoder) : Prop :=
  split decoder.buffer = .ok ⟨[], decoder.buffer⟩ ∧ decoder.searched = decoder.buffer.length

theorem settled_fresh : Settled .fresh := by
  refine ⟨?_, rfl⟩
  change split [] = _
  rw [split]
  rfl

/-- Feeding a settled decoder splits its buffer with the new octets behind it. -/
theorem feed_of_split {decoder : Decoder} (settled : Settled decoder) (data : Octets) :
    match split (decoder.buffer ++ data) with
    | .ok read => decoder.feed data =
        (.ok (read.texts.map .text), ⟨read.unfinished, read.unfinished.length⟩)
    | .error code => ∃ violation last, decoder.feed data = (.error violation, last) ∧
        violation.code = code := by
  have clean : Searched decoder.searched (decoder.buffer ++ data) := by
    rw [settled.2]
    refine ⟨?_, ?_⟩
    · rw [List.length_append]
      omega
    · rw [List.take_left]
      exact (split_unfinished settled.1).2
  exact drain_of_split clean []

/-- A settled decoder accepts octets exactly if its stream can be split. -/
theorem feed_eq_ok_iff {decoder next : Decoder} (settled : Settled decoder) {data : Octets}
    {messages : List Message} :
    decoder.feed data = (.ok messages, next) ↔
      ∃ read, split (decoder.buffer ++ data) = .ok read ∧ messages = read.texts.map .text ∧
        next = ⟨read.unfinished, read.unfinished.length⟩ := by
  have fed := feed_of_split settled data
  rcases read : split (decoder.buffer ++ data) with code | read
  · rw [read] at fed
    obtain ⟨violation, last, refused, -⟩ := fed
    simp [refused]
  · rw [read] at fed
    simp only [fed, Prod.mk.injEq, Except.ok.injEq, exists_eq_left']
    constructor
    · rintro ⟨rfl, rfl⟩
      exact ⟨rfl, rfl⟩
    · rintro ⟨rfl, rfl⟩
      exact ⟨rfl, rfl⟩

/-- A settled decoder refuses octets with a code exactly if splitting its stream ends with it. -/
theorem feed_eq_error_iff {decoder : Decoder} (settled : Settled decoder) {data : Octets}
    {code : UInt16} :
    (∃ violation last, decoder.feed data = (.error violation, last) ∧ violation.code = code) ↔
      split (decoder.buffer ++ data) = .error code := by
  have fed := feed_of_split settled data
  rcases read : split (decoder.buffer ++ data) with other | read
  · rw [read] at fed
    obtain ⟨violation, last, refused, rfl⟩ := fed
    simp [refused]
  · rw [read] at fed
    simp [fed]

/-- What is refused stays refused with the same code, whatever follows. -/
theorem split_error_of_prefix {front stream : Octets} {code : UInt16} (leads : front <+: stream)
    (rejected : split front = .error code) : split stream = .error code := by
  obtain ⟨back, rfl⟩ := leads
  rw [split_append, rejected]

/-- A run over chunks agrees with splitting the octets behind those that came earlier: the messages
of the accepted chunks are the texts, and the chunk that is refused ends the splitting with the code
of its violation. -/
structure Agrees (earlier : Octets) (chunks : List Octets) (run : Transcript Decoder) : Prop where
  accepted : ∀ count ≤ run.accepted.length, ∃ read,
    split (earlier ++ (chunks.take count).flatten) = .ok read ∧
      (run.accepted.take count).flatten = read.texts.map .text
  refused : ∀ violation, run.violation = some violation →
    split (earlier ++ (chunks.take (run.accepted.length + 1)).flatten) = .error violation.code
  complete : run.violation = none → run.accepted.length = chunks.length

theorem agrees_transcript {decoder : Decoder} (settled : Settled decoder) (chunks : List Octets) :
    Agrees decoder.buffer chunks (Feeding.transcript Decoder.feed decoder chunks) := by
  induction chunks generalizing decoder with
  | nil =>
    refine ⟨fun count _ => ⟨⟨[], decoder.buffer⟩, ?_, ?_⟩, fun violation ended => ?_, fun _ => rfl⟩
    · simpa using settled.1
    · simp [Feeding.transcript]
    · cases ended
  | cons chunk rest inductionHypothesis =>
    have fed := feed_of_split settled chunk
    have none : ∃ read, split (decoder.buffer ++ ((chunk :: rest).take 0).flatten) = .ok read ∧
        [] = read.texts.map Message.text :=
      ⟨⟨[], decoder.buffer⟩, by simpa using settled.1, rfl⟩
    rcases first : split (decoder.buffer ++ chunk) with code | read
    · rw [first] at fed
      obtain ⟨violation, last, refused, rfl⟩ := fed
      rw [Feeding.transcript, refused]
      refine ⟨fun count within => ?_, fun other ended => ?_, fun complete => ?_⟩
      · obtain rfl : count = 0 := Nat.le_zero.mp within
        exact none
      · obtain rfl := Option.some.inj ended
        simpa using first
      · cases complete
    · rw [first] at fed
      obtain ⟨accepted, refused, complete⟩ :=
        @inductionHypothesis ⟨read.unfinished, read.unfinished.length⟩
          ⟨(split_unfinished first).1, rfl⟩
      have onward (octets : Octets) := split_append (decoder.buffer ++ chunk) octets
      simp only [first, List.append_assoc] at onward
      rw [Feeding.transcript, fed]
      refine ⟨fun count within => ?_, fun violation ended => ?_, fun ended => ?_⟩
      · cases count with
        | zero => exact none
        | succ count =>
          obtain ⟨more, second, messages⟩ := accepted count (Nat.le_of_succ_le_succ within)
          refine ⟨.behind read.texts more, ?_, ?_⟩
          · rw [List.take_succ_cons, List.flatten_cons, onward, second]
            rfl
          · simp [messages, Splitting.behind]
      · rw [List.length_cons, List.take_succ_cons, List.flatten_cons, onward,
          refused violation ended]
        rfl
      · exact congrArg Nat.succ (complete ended)

/-- The shortest prefix of a stream that cannot be split, with the code that ends its splitting. -/
structure ShortestRejected (stream front : Octets) (code : UInt16) : Prop where
  leads : front <+: stream
  rejected : split front = .error code
  shortest : ∀ {other : Octets} {otherCode : UInt16}, other <+: stream →
    split other = .error otherCode → front.length ≤ other.length

theorem exists_shortestRejected {stream : Octets} {code : UInt16}
    (rejected : split stream = .error code) : ∃ front, ShortestRejected stream front code := by
  have refuses (octets : Octets) (other : UInt16) (ends : split octets = .error other) :
      Feeding.Refuses Decoder.feed .fresh octets := by
    obtain ⟨violation, last, refused, -⟩ := (feed_eq_error_iff settled_fresh).mpr ends
    exact ⟨violation, last, refused⟩
  obtain ⟨front, leads, ⟨violation, last, refused⟩, shortest⟩ :=
    Feeding.exists_shortestRefused (refuses stream code rejected)
  have ends : split front = .error violation.code :=
    (feed_eq_error_iff settled_fresh).mp ⟨violation, last, refused, rfl⟩
  refine ⟨front, leads, ?_, fun other stops => shortest other (refuses _ _ stops)⟩
  rw [ends, ← split_error_of_prefix leads ends, rejected]

/-- No octet of a text in UTF-8 is an end mark. -/
theorem endMark_notMem_encode (text : String) : endMark ∉ Utf8.encode text := by
  have small {value : Nat} (bound : value < 248) : UInt8.ofNat value ≠ endMark := by
    intro same
    have number := congrArg UInt8.toNat same
    rw [UInt8.toNat_ofNat', endMark] at number
    change value % 256 = 255 at number
    omega
  have octet (character : Char) : ∀ byte ∈ String.utf8EncodeChar character, byte ≠ endMark := by
    simp only [String.utf8EncodeChar]
    repeat' split
    all_goals simp only [List.forall_mem_cons]
    · exact ⟨small (by omega), List.forall_mem_nil _⟩
    · exact ⟨small (by omega), small (by omega), List.forall_mem_nil _⟩
    · exact ⟨small (by omega), small (by omega), small (by omega), List.forall_mem_nil _⟩
    · exact ⟨small (by omega), small (by omega), small (by omega), small (by omega),
        List.forall_mem_nil _⟩
  rw [Utf8.encode_eq_flatMap, List.mem_flatMap]
  rintro ⟨character, -, mem⟩
  exact octet character _ mem rfl

/-- Texts that are not too big are split from the octets that write them one after the other. -/
theorem split_encode {texts : List String}
    (small : ∀ text ∈ texts, (Utf8.encode text).length ≤ Frame.sizeLimit) :
    split (texts.map encode).flatten = .ok ⟨texts, []⟩ := by
  induction texts with
  | nil => rw [List.map_nil, List.flatten_nil, split]
  | cons text rest inductionHypothesis =>
    have later := inductionHypothesis fun other mem => small other (List.mem_cons_of_mem _ mem)
    have fits : ¬ (Utf8.encode text).length > Frame.sizeLimit :=
      Nat.not_lt.mpr (small text List.mem_cons_self)
    have whole := split_of_message (endMark_notMem_encode text) fits (rest.map encode).flatten
    rw [Utf8.decode?_eq_some_iff.mpr rfl, later] at whole
    simpa [encode, Except.map, Splitting.behind] using whole

/-- In whatever chunks a stream comes, a fresh decoder finds what splitting the stream so far finds:
the messages of the chunks accepted so far are the texts so far. A chunk is refused exactly if the
stream cannot be split, with the same code, and it holds the last octet of the shortest prefix that
cannot be split. Texts that are not too big are read back from the octets that write them one after
the other. -/
theorem transcript_agrees_split (chunks : List Octets) :
    let run := Feeding.transcript Decoder.feed .fresh chunks
    (∀ count ≤ run.accepted.length, ∃ read, split (chunks.take count).flatten = .ok read ∧
      (run.accepted.take count).flatten = read.texts.map .text) ∧
    (match split chunks.flatten with
      | .ok _ => run.violation = none ∧ run.accepted.length = chunks.length
      | .error code => ∃ violation front, run.violation = some violation ∧ violation.code = code ∧
        ShortestRejected chunks.flatten front code ∧
        (chunks.take run.accepted.length).flatten.length < front.length ∧
        front.length ≤ (chunks.take (run.accepted.length + 1)).flatten.length) ∧
    ∀ texts : List String, (∀ text ∈ texts, (Utf8.encode text).length ≤ Frame.sizeLimit) →
      chunks.flatten = (texts.map encode).flatten →
        run.violation = none ∧ run.accepted.flatten = texts.map .text := by
  intro run
  obtain ⟨accepted, refused, complete⟩ : Agrees [] chunks run :=
    agrees_transcript settled_fresh chunks
  have leads (count : Nat) : (chunks.take count).flatten <+: chunks.flatten :=
    ⟨(chunks.drop count).flatten, by rw [← List.flatten_append, List.take_append_drop]⟩
  have unrefused {read : Splitting} (whole : split chunks.flatten = .ok read) :
      run.violation = none := by
    rcases ended : run.violation with _ | violation
    · rfl
    · have stops := split_error_of_prefix (leads _) (refused violation ended)
      rw [whole] at stops
      cases stops
  refine ⟨accepted, ?_, fun texts small written => ?_⟩
  · rcases whole : split chunks.flatten with code | read
    · obtain ⟨front, shortest⟩ := exists_shortestRejected whole
      rcases ended : run.violation with _ | violation
      · -- Without a refused chunk the whole stream would have been split.
        obtain ⟨read, passes, -⟩ := accepted _ (le_refl _)
        rw [complete ended, List.take_length, List.nil_append, whole] at passes
        cases passes
      · have stops := refused violation ended
        have same := split_error_of_prefix (leads _) stops
        rw [whole] at same
        cases same
        refine ⟨violation, front, rfl, rfl, shortest, ?_, shortest.shortest (leads _) stops⟩
        by_contra early
        obtain ⟨read, passes, -⟩ := accepted _ (le_refl _)
        have inside : front <+: (chunks.take run.accepted.length).flatten :=
          List.prefix_of_prefix_length_le shortest.leads (leads _) (Nat.not_lt.mp early)
        rw [List.nil_append, split_error_of_prefix inside shortest.rejected] at passes
        cases passes
    · exact ⟨unrefused whole, complete (unrefused whole)⟩
  · have whole : split chunks.flatten = .ok ⟨texts, []⟩ := written ▸ split_encode small
    obtain ⟨read, passes, messages⟩ := accepted _ (le_refl _)
    rw [complete (unrefused whole), List.take_length, List.nil_append, whole] at passes
    cases passes
    rw [List.take_length] at messages
    exact ⟨unrefused whole, messages⟩

end CashHerald.Wire.Delimited
