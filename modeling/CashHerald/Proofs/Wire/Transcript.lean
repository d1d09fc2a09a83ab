import CashHerald.Wire.Reassembly
import Mathlib.Data.Nat.Find

/-!
Transcripts of a decoder that is fed chunk by chunk. Main statements: the feeds of a prefix of the
chunks have the outcome of one feed of these chunks, and the chunk that is refused holds the last
octet of the shortest refused prefix of the stream.
-/

namespace CashHerald.Wire

/-- A feed adds octets to a state. It returns the messages that are complete or a violation. -/
abbrev Feeding (State : Type) := State → Octets → Except Violation (List Message) × State

/-- The messages of each accepted chunk, the violation of the chunk that ended the feeds, if one
did, and the last state. -/
structure Transcript (State : Type) where
  accepted : List (List Message)
  violation : Option Violation
  last : State

namespace Feeding

variable {State : Type}

/-- Feeds the chunks in order up to the first one that is refused. -/
def transcript (feeding : Feeding State) (state : State) : List Octets → Transcript State
  | [] => ⟨[], none, state⟩
  | chunk :: rest =>
    match feeding state chunk with
    | (.error violation, last) => ⟨[], some violation, last⟩
    | (.ok messages, next) =>
      let later := feeding.transcript next rest
      ⟨messages :: later.accepted, later.violation, later.last⟩

/-- Feeding one more chunk behind accepted ones. -/
theorem transcript_concat {feeding : Feeding State} {state next last : State} {chunks : List Octets}
    {accepted : List (List Message)} {chunk : Octets} {messages : List Message}
    (earlier : feeding.transcript state chunks = ⟨accepted, none, next⟩)
    (fed : feeding next chunk = (.ok messages, last)) :
    feeding.transcript state (chunks ++ [chunk]) = ⟨accepted ++ [messages], none, last⟩ := by
  induction chunks generalizing state accepted with
  | nil =>
    cases earlier
    simp only [List.nil_append, transcript, fed]
  | cons first rest inductionHypothesis =>
    simp only [transcript, List.cons_append] at earlier ⊢
    split at earlier
    · cases earlier
    · rename_i head middle passed
      rcases later : feeding.transcript middle rest with ⟨laterAccepted, laterViolation, laterLast⟩
      rw [later] at earlier
      cases earlier
      rw [inductionHypothesis later]
      rfl

def Refuses (feeding : Feeding State) (state : State) (octets : Octets) : Prop :=
  ∃ violation last, feeding state octets = (.error violation, last)

/-- The shortest prefix of a stream that is refused when it is fed at once. -/
structure ShortestRefused (feeding : Feeding State) (state : State) (stream front : Octets) :
    Prop where
  leads : front <+: stream
  refused : feeding.Refuses state front
  shortest : ∀ {other}, other <+: stream → feeding.Refuses state other →
    front.length ≤ other.length

/-- Feeding a concatenation is feeding its parts, and a refused front is refused with more octets
behind it. -/
structure Incremental (feeding : Feeding State) (Settled : State → Prop) : Prop where
  nothing : ∀ {state}, Settled state → feeding state [] = (.ok [], state)
  settled : ∀ {state front messages next}, feeding state front = (.ok messages, next) → Settled next
  resumes : ∀ {state front messages next}, feeding state front = (.ok messages, next) →
    ∀ back, feeding state (front ++ back) =
      ((feeding next back).1.map (messages ++ ·), (feeding next back).2)
  refuses : ∀ {state front}, feeding.Refuses state front →
    ∀ back, feeding.Refuses state (front ++ back)

/-- A refused stream has a shortest refused prefix. -/
theorem exists_shortestRefused {feeding : Feeding State} {state : State} {stream : Octets}
    (refused : feeding.Refuses state stream) :
    ∃ front, feeding.ShortestRefused state stream front := by
  classical
  have some : ∃ size, feeding.Refuses state (stream.take size) :=
    ⟨stream.length, by rwa [List.take_length]⟩
  refine ⟨stream.take (Nat.find some), List.take_prefix _ _, Nat.find_spec some, ?_⟩
  intro other leads otherRefused
  have least : Nat.find some ≤ other.length := by
    apply Nat.find_min' some
    rwa [← List.prefix_iff_eq_take.mp leads]
  rw [List.length_take]
  omega

namespace Incremental

variable {feeding : Feeding State} {Settled : State → Prop}

/-- What is refused stays refused in every longer stream. -/
theorem refuses_of_prefix (incremental : feeding.Incremental Settled) {state : State}
    {front stream : Octets} (leads : front <+: stream) (refused : feeding.Refuses state front) :
    feeding.Refuses state stream := by
  obtain ⟨back, rfl⟩ := leads
  exact incremental.refuses refused back

/-- The messages of an accepted stream are those of its front and those of the octets behind. -/
theorem accepted_append (incremental : feeding.Incremental Settled) {state next last : State}
    {front back : Octets} {first whole : List Message}
    (passed : feeding state front = (.ok first, next))
    (outcome : feeding state (front ++ back) = (.ok whole, last)) :
    ∃ second, feeding next back = (.ok second, last) ∧ whole = first ++ second := by
  rw [incremental.resumes passed back] at outcome
  rcases feed : feeding next back with ⟨_ | second, final⟩
  · rw [feed] at outcome
    cases outcome
  · rw [feed] at outcome
    cases outcome
    exact ⟨second, rfl, rfl⟩

/-- If no chunk is refused, the transcript is the outcome of one feed of all chunks. -/
theorem feed_of_transcript (incremental : feeding.Incremental Settled) {state : State}
    (settled : Settled state) {chunks : List Octets} {accepted : List (List Message)} {last : State}
    (run : feeding.transcript state chunks = ⟨accepted, none, last⟩) :
    accepted.length = chunks.length ∧
      feeding state chunks.flatten = (.ok accepted.flatten, last) := by
  induction chunks generalizing state accepted with
  | nil =>
    cases run
    exact ⟨rfl, incremental.nothing settled⟩
  | cons chunk rest inductionHypothesis =>
    simp only [transcript] at run
    split at run
    · cases run
    · rename_i messages next fed
      rcases later : feeding.transcript next rest with ⟨laterAccepted, laterViolation, laterLast⟩
      rw [later] at run
      cases run
      obtain ⟨length, outcome⟩ := inductionHypothesis (incremental.settled fed) later
      refine ⟨congrArg Nat.succ length, ?_⟩
      rw [List.flatten_cons, incremental.resumes fed, outcome]
      rfl

/-- If a chunk is refused, the chunks before it are accepted at once, and so is not the stream up to
the end of this chunk. -/
theorem feed_of_refused_transcript (incremental : feeding.Incremental Settled) {state : State}
    (settled : Settled state) {chunks : List Octets} {accepted : List (List Message)}
    {violation : Violation} {last : State}
    (run : feeding.transcript state chunks = ⟨accepted, some violation, last⟩) :
    ∃ before chunk after middle, chunks = before ++ chunk :: after ∧
      before.length = accepted.length ∧
      feeding state before.flatten = (.ok accepted.flatten, middle) ∧
      feeding state (before ++ [chunk]).flatten = (.error violation, last) := by
  induction chunks generalizing state accepted with
  | nil => cases run
  | cons chunk rest inductionHypothesis =>
    simp only [transcript] at run
    split at run
    · rename_i refusal stopped fed
      cases run
      exact ⟨[], chunk, rest, state, rfl, rfl, incremental.nothing settled, by simpa using fed⟩
    · rename_i messages next fed
      rcases later : feeding.transcript next rest with ⟨laterAccepted, laterViolation, laterLast⟩
      rw [later] at run
      cases run
      obtain ⟨before, refusedChunk, after, middle, rfl, length, outcome, refused⟩ :=
        inductionHypothesis (incremental.settled fed) later
      refine ⟨chunk :: before, refusedChunk, after, middle, rfl, congrArg Nat.succ length, ?_, ?_⟩
      · rw [List.flatten_cons, incremental.resumes fed, outcome]
        rfl
      · rw [List.cons_append, List.flatten_cons, incremental.resumes fed, refused]
        rfl

/-- The refused chunk holds the last octet of the shortest refused prefix. -/
theorem shortestRefused_within (incremental : feeding.Incremental Settled) {state : State}
    (settled : Settled state) {chunks : List Octets} {accepted : List (List Message)}
    {violation : Violation} {last : State}
    (run : feeding.transcript state chunks = ⟨accepted, some violation, last⟩) {front : Octets}
    (shortest : feeding.ShortestRefused state chunks.flatten front) :
    (chunks.take accepted.length).flatten.length < front.length ∧
      front.length ≤ (chunks.take (accepted.length + 1)).flatten.length := by
  obtain ⟨before, chunk, after, middle, rfl, length, outcome, refused⟩ :=
    incremental.feed_of_refused_transcript settled run
  have passed : (before ++ chunk :: after).take accepted.length = before := by
    rw [← length, List.take_left']
    rfl
  have stopped : (before ++ chunk :: after).take (accepted.length + 1) = before ++ [chunk] := by
    rw [← length, List.take_length_add_append]
    rfl
  have leads : before.flatten <+: (before ++ chunk :: after).flatten :=
    ⟨(chunk :: after).flatten, List.flatten_append.symm⟩
  rw [passed, stopped]
  constructor
  · -- A refused prefix that ends earlier would refuse the accepted chunks.
    by_contra early
    have inside : front <+: before.flatten :=
      List.prefix_of_prefix_length_le shortest.leads leads (by omega)
    obtain ⟨other, otherLast, otherwise⟩ := incremental.refuses_of_prefix inside shortest.refused
    rw [outcome] at otherwise
    cases otherwise
  · apply shortest.shortest _ ⟨violation, last, refused⟩
    exact ⟨after.flatten, by simp⟩

end Incremental

end Feeding

end CashHerald.Wire
