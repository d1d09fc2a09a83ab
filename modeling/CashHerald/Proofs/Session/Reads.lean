import CashHerald.Proofs.Session.Undisturbed
import CashHerald.Proofs.Upgrade.Growing
import CashHerald.Proofs.Wire.Parts
import Mathlib

/-!
Reads of a socket, which cut the stream of a client anywhere. What a session has taken up depends on
the octets read so far, and not on how they were read. Main statement: for every cut of a stream
that is a request with acceptable octets behind it, an undisturbed run tells the handler of the same
events and writes the same octets.
-/

namespace CashHerald.Session

/-- Messages to deliver, and the phase in which the session waits behind them. -/
def Task.deliveries (messages : List Wire.Message) (phase : Phase) : List Task :=
  messages.map .deliver ++ [.wait phase]

namespace Scene

variable {Memory : Type} {handler : Handler Memory} {client : Nat} {scene : Scene Memory}

theorem carryOut_of_move {task : Task} (works : task.rest? scene.connection = none)
    (rest : List Task) :
    scene.carryOut handler client (task :: rest) =
      (scene.follow handler client (task.move scene.connection rest)).carryOut handler client
        (task.move scene.connection rest).left := by
  rw [carryOut, works]

theorem phase_carryOut_finish (scene : Scene Memory) :
    (scene.carryOut handler client [.finish]).2 = .ended := by
  simp [carryOut, Task.rest?, Task.move]

theorem phase_carryOut_failing (scene : Scene Memory) (fault : Wire.Fault) :
    (scene.carryOut handler client (Task.failing fault)).2 = .ended := by
  simp [carryOut, Task.failing, Task.rest?, Task.move]

/-- A session whose connection has started to close delivers nothing more. -/
theorem carryOut_deliveries_of_unavailable (unavailable : scene.connection.isAvailable = false)
    (messages : List Wire.Message) (phase : Phase) :
    scene.carryOut handler client (Task.deliveries messages phase) =
      scene.carryOut handler client [.finish] := by
  cases messages with
  | nil =>
    refine (carryOut_of_move ?_ []).trans rfl
    simp [Task.rest?, unavailable]
  | cons message rest =>
    refine (carryOut_of_move rfl _).trans ?_
    simp only [Task.move, unavailable]
    rfl

/-- A session that ends while it delivers messages ends in the same way with more of them, and one
that waits behind them delivers the others from there. -/
theorem carryOut_deliveries_append (early late : List Wire.Message) (middle last : Phase) :
    let front := scene.carryOut handler client (Task.deliveries early middle)
    let whole := scene.carryOut handler client (Task.deliveries (early ++ late) last)
    front.2 = .ended ∧ whole = front ∨
      front.2 = middle ∧ whole = front.1.carryOut handler client (Task.deliveries late last) := by
  induction early generalizing scene with
  | nil =>
    by_cases available : scene.connection.isAvailable = true
    · have rests : scene.carryOut handler client (Task.deliveries [] middle) = (scene, middle) := by
        simp [Task.deliveries, carryOut, Task.rest?, available]
      simp only [rests, List.nil_append]
      exact .inr ⟨trivial, trivial⟩
    · rw [Bool.not_eq_true] at available
      simp only [carryOut_deliveries_of_unavailable available]
      exact .inl ⟨phase_carryOut_finish scene, trivial⟩
  | cons message early inductionHypothesis =>
    by_cases available : scene.connection.isAvailable = true
    · have delivered (rest : List Task) :
          scene.carryOut handler client (.deliver message :: rest) =
            (scene.follow handler client (Task.delivery rest message)).carryOut handler client
              (Task.delivery rest message).left := by
        refine (carryOut_of_move rfl rest).trans ?_
        simp only [Task.move, available, if_pos]
      simp only [Task.deliveries, List.cons_append, List.map_cons, delivered]
      cases message with
      | close code =>
        -- A close message ends the delivery, whatever comes behind it.
        exact .inl ⟨phase_carryOut_finish _, rfl⟩
      | _ => exact inductionHypothesis
    · rw [Bool.not_eq_true] at available
      simp only [carryOut_deliveries_of_unavailable available]
      exact .inl ⟨phase_carryOut_finish scene, trivial⟩

end Scene

namespace Phase

/-- Octets that are accepted leave their messages to deliver. -/
theorem receive_of_ok {decoder next : Wire.Decoder} {octets : Octets}
    {messages : List Wire.Message} (fed : decoder.feed octets = (.ok messages, next)) :
    receive decoder octets = Task.deliveries messages (.speaking next) := by
  simp only [receive, fed]
  rfl

/-- The decoder for the octets behind a request, if the request is answered. -/
def negotiated? (settings : Settings) (request : Upgrade.Request) : Option Wire.Decoder :=
  match request.dialect?, Upgrade.agree settings.subProtocols request.subProtocols with
  | some dialect, .ok subProtocol =>
    match Upgrade.Response.ofDialect dialect request subProtocol with
    | .ok _ => dialect.decoder?
    | .error _ => none
  | _, _ => none

theorem exists_dialect_of_negotiated? {settings : Settings} {request : Upgrade.Request}
    {decoder : Wire.Decoder} (negotiated : negotiated? settings request = some decoder) :
    ∃ dialect, request.dialect? = some dialect ∧ dialect.decoder? = some decoder := by
  unfold negotiated? at negotiated
  split at negotiated
  · rename_i dialect _ asked _
    split at negotiated
    · exact ⟨dialect, asked, negotiated⟩
    · cases negotiated
  · cases negotiated

/-- A request is refused, whatever is behind it, or the connection opens and the negotiated decoder
reads on. -/
theorem upgrade_cases (settings : Settings) (request : Upgrade.Request) :
    (∃ tasks, (tasks = [.finish] ∨ ∃ fault, tasks = Task.failing fault) ∧
        ∀ behind, upgrade settings request behind = tasks) ∨
      ∃ details response decoder, negotiated? settings request = some decoder ∧
        details.dialect.decoder? = some decoder ∧
        ∀ behind, upgrade settings request behind = begin details response behind := by
  unfold upgrade negotiated?
  rcases asked : request.dialect? with _ | dialect
  · exact .inl ⟨_, .inl rfl, fun _ => rfl⟩
  rcases agreed : Upgrade.agree settings.subProtocols request.subProtocols with fault | subProtocol
  · exact .inl ⟨_, .inr ⟨fault, rfl⟩, fun _ => rfl⟩
  rcases answered : Upgrade.Response.ofDialect dialect request subProtocol with refusal | response
  · exact .inl ⟨_, .inr ⟨.handshake refusal, rfl⟩, fun _ => by simp only [answered]⟩
  · have answers : Answers (.ofRequest dialect request subProtocol) response :=
      ⟨request, subProtocol, asked, rfl, answered⟩
    have speaks : ∃ decoder, dialect.decoder? = some decoder := by
      rcases answers.dialect with same | same <;>
        exact ⟨_, congrArg Wire.Dialect.decoder? same⟩
    obtain ⟨decoder, speaks⟩ := speaks
    refine .inr ⟨.ofRequest dialect request subProtocol, response, decoder, ?_, speaks,
      fun behind => ?_⟩
    · simp only [answered, speaks]
    · simp only [answered]

end Phase

/-- A stream is an upgrade request, not too long for the server, and octets behind it that the
decoder accepts with which the server answers. -/
structure Readable (settings : Settings) (stream : Octets) (request : Upgrade.Request) : Prop where
  read : Upgrade.Reading.of settings.scheme stream = .request request
  fits : request.raw.length ≤ settings.handshakeLimit
  accepted : ∀ decoder ∈ Phase.negotiated? settings request, ∃ messages last,
    decoder.feed (stream.drop request.raw.length) = (.ok messages, last)

section Reads

variable {Memory : Type} {handler : Handler Memory} {settings : Settings} {client : Nat}
  {memory : Memory} {request : Upgrade.Request} {part more later : Octets}

/-- A session with what its handler remembers when some tasks have been carried out. -/
def carriedOut (outcome : Scene Memory × Phase) : Session × Memory :=
  (⟨outcome.1.connection, outcome.2⟩, outcome.1.memory)

theorem step_carriedOut (outcome : Scene Memory × Phase) (arrival : Arrival) :
    (carriedOut outcome).1.step handler settings client (carriedOut outcome).2 arrival =
      carriedOut (outcome.1.carryOut handler client (outcome.2.tasks settings arrival)) :=
  rfl

/-- A fresh session behind the octets of a stream that have been read. -/
def readUpTo (handler : Handler Memory) (settings : Settings) (client : Nat) (memory : Memory)
    (part : Octets) : Session × Memory :=
  carriedOut ((⟨.fresh, memory⟩ : Scene Memory).carryOut handler client
    (Phase.awaitRequest settings part))

/-- The scene when a fresh connection has opened. -/
def openedScene (handler : Handler Memory) (client : Nat) (memory : Memory) (details : Details)
    (response : Octets) : Scene Memory :=
  (⟨.fresh, memory⟩ : Scene Memory).follow handler client
    ⟨some (.complete details response), some .opened, []⟩

/-- A connection that opens delivers the messages behind the request. -/
theorem carryOut_begin {details : Details} {response behind : Octets} {decoder next : Wire.Decoder}
    {messages : List Wire.Message} (speaks : details.dialect.decoder? = some decoder)
    (fed : decoder.feed behind = (.ok messages, next)) :
    (⟨.fresh, memory⟩ : Scene Memory).carryOut handler client
        (Phase.begin details response behind) =
      (openedScene handler client memory details response).carryOut handler client
        (Task.deliveries messages (.speaking next)) := by
  have rest : (if behind = [] then [.wait (.speaking decoder)] else Phase.receive decoder behind) =
      Task.deliveries messages (.speaking next) := by
    split
    · rename_i nothing
      rw [nothing, Wire.Decoder.feed_nil (Wire.Decoder.settled_of_decoder? speaks)] at fed
      cases fed
      rfl
    · exact Phase.receive_of_ok fed
  rw [Phase.begin, speaks]
  simp only [rest]
  exact Scene.carryOut_of_move rfl _

/-- Until the request is complete, the session waits for more of it. -/
theorem readUpTo_of_short (readable : Readable settings (part ++ later) request)
    (short : part.length < request.raw.length) :
    readUpTo handler settings client memory part = (⟨.fresh, .awaiting part⟩, memory) := by
  have incomplete : Upgrade.Reading.of settings.scheme part = .incomplete := by
    rw [Upgrade.Reading.of_part readable.read, if_pos short]
  have fits : ¬ part.length > settings.handshakeLimit := by
    have fits := readable.fits
    omega
  have waits : Phase.awaitRequest settings part = [.wait (.awaiting part)] := by
    rw [Phase.awaitRequest, incomplete]
    exact if_neg fits
  have available : Connection.fresh.isAvailable = true := rfl
  simp [readUpTo, carriedOut, waits, Scene.carryOut, Task.rest?, available]

/-- A request that is complete is answered or refused, with the octets read behind it. -/
theorem awaitRequest_of_long (readable : Readable settings (part ++ later) request)
    (long : ¬ part.length < request.raw.length) :
    Phase.awaitRequest settings part =
      Phase.upgrade settings request (part.drop request.raw.length) := by
  have read : Upgrade.Reading.of settings.scheme part = .request request := by
    rw [Upgrade.Reading.of_part readable.read, if_neg long]
  rw [Phase.awaitRequest, read]

/-- Reading on comes to the same as reading at once. -/
theorem step_readUpTo (readable : Readable settings (part ++ more ++ later) request) :
    (readUpTo handler settings client memory part).1.step handler settings client
        (readUpTo handler settings client memory part).2 (.data more) =
      readUpTo handler settings client memory (part ++ more) := by
  have readable' : Readable settings (part ++ (more ++ later)) request := by
    rwa [← List.append_assoc]
  by_cases short : part.length < request.raw.length
  · rw [readUpTo_of_short readable' short]
    rfl
  have long : ¬ (part ++ more).length < request.raw.length := by
    rw [List.length_append]
    omega
  have behind (back : Octets) : (part ++ back).drop request.raw.length =
      part.drop request.raw.length ++ back :=
    List.drop_append_of_le_length (Nat.not_lt.mp short)
  simp only [readUpTo, awaitRequest_of_long readable' short, awaitRequest_of_long readable long,
    behind]
  rcases Phase.upgrade_cases settings request with ⟨tasks, refused, same⟩ |
    ⟨details, response, decoder, negotiated, speaks, same⟩
  · -- A refused session has ended and takes up no more octets.
    simp only [same]
    refine Session.step_of_ended _ _ _ _ _ ?_
    rcases refused with rfl | ⟨fault, rfl⟩
    · exact Scene.phase_carryOut_finish _
    · exact Scene.phase_carryOut_failing _ fault
  · -- An open one delivers the messages of both parts, or ends in the first and stays there.
    obtain ⟨messages, last, fed⟩ := readable.accepted decoder negotiated
    have settled := Wire.Decoder.settled_of_decoder? speaks
    rw [List.append_assoc, behind, ← List.append_assoc] at fed
    obtain ⟨whole, final, -, fedWhole, -⟩ := Wire.Decoder.feed_inParts settled fed
    obtain ⟨early, middle, late, first, between, second, rfl⟩ :=
      Wire.Decoder.feed_inParts settled fedWhole
    simp only [same, carryOut_begin speaks first, carryOut_begin speaks fedWhole]
    rcases Scene.carryOut_deliveries_append early late (.speaking middle) (.speaking final) with
      ⟨ended, stays⟩ | ⟨waits, goesOn⟩
    · rw [stays]
      exact Session.step_of_ended _ _ _ _ _ ended
    · rw [goesOn, step_carriedOut, waits]
      exact congrArg (fun tasks => carriedOut (Scene.carryOut handler client _ tasks))
        (Phase.receive_of_ok second)

/-- Whatever the reads are, the session is where the octets read so far have led. -/
theorem stepAll_data {cut : List Octets}
    (readable : Readable settings (cut.flatten ++ later) request) :
    stepAll handler settings client memory (cut.map .data) =
      readUpTo handler settings client memory cut.flatten := by
  induction cut using List.reverseRecOn generalizing later with
  | nil =>
    rw [List.flatten_nil] at readable ⊢
    exact (readUpTo_of_short readable (Upgrade.Reading.length_raw_pos readable.read)).symm
  | append_singleton cut chunk inductionHypothesis =>
    rw [List.flatten_append, List.flatten_singleton] at readable ⊢
    have readable' : Readable settings (cut.flatten ++ (chunk ++ later)) request := by
      rwa [← List.append_assoc]
    rw [List.map_append, List.map_singleton, stepAll_concat, inductionHypothesis readable']
    exact step_readUpTo readable

end Reads

namespace Moment

variable {Memory : Type}

/-- However the stream of a client is cut into reads, if it is an upgrade request that is not too
long, with octets behind it that the negotiated decoder accepts, then its connection can be brought
to its end, and whenever it comes there, its handler has been told of the same events, and the same
octets have been written. -/
theorem exists_outcome_of_reads (handler : Handler Memory) (settings : Settings) (client : Nat)
    (memory : Memory) {stream : Octets} {request : Upgrade.Request}
    (readable : Readable settings stream request) :
    ∃ events octets, ∀ cut : List Octets, cut.flatten = stream →
      (∃ last, Undisturbed.Complete handler settings client memory
        (cut.map .data ++ [.endOfStream]) last) ∧
      ∀ last, Undisturbed.Complete handler settings client memory
        (cut.map .data ++ [.endOfStream]) last →
          last.callbacks = events ∧ last.written = octets := by
  let final := (readUpTo handler.noting settings client (memory, []) stream).1.step handler.noting
    settings client (readUpTo handler.noting settings client (memory, []) stream).2 .endOfStream
  refine ⟨final.2.2, final.1.connection.output [], ?_⟩
  rintro cut rfl
  refine ⟨Undisturbed.exists_complete handler settings client memory _, fun last complete => ?_⟩
  have stepped : Undisturbed.stepped handler settings client memory
      (cut.map .data ++ [.endOfStream]) = final := by
    have whole : Readable settings (cut.flatten ++ []) request := by rwa [List.append_nil]
    rw [Undisturbed.stepped, stepAll_concat, stepAll_data whole]
  have outcome := complete.outcome
  rwa [stepped] at outcome

/-- A request for the standard framing. -/
def knock : Upgrade.Request :=
  ⟨"GET", "/", "ws",
    [("Sec-WebSocket-Version", "13"), ("Sec-WebSocket-Key", "dGhlIHNhbXBsZSBub25jZQ==")], [],
    Utf8.encode ("GET / HTTP/1.1\r\nSec-WebSocket-Version: 13\r\n" ++
      "Sec-WebSocket-Key: dGhlIHNhbXBsZSBub25jZQ==\r\n\r\n")⟩

/-- A client shakes hands, says something, and closes, all at once. -/
def visit : Octets :=
  knock.raw ++ Wire.Frame.encodeMasked .text [104, 105] ⟨1, 2, 3, 4⟩ ++
    Wire.Frame.encodeMasked .close [3, 233] ⟨5, 6, 7, 8⟩

theorem exists_outcome_of_reads_visit :
    Readable ⟨"ws", [], 100⟩ visit knock ∧
      ∃ events octets, ∀ cut : List Octets, cut.flatten = visit →
        (∃ last, Undisturbed.Complete greeter ⟨"ws", [], 100⟩ 0 ()
          (cut.map .data ++ [.endOfStream]) last) ∧
        ∀ last, Undisturbed.Complete greeter ⟨"ws", [], 100⟩ 0 ()
          (cut.map .data ++ [.endOfStream]) last →
            last.callbacks = events ∧ last.written = octets := by
  have readable : Readable ⟨"ws", [], 100⟩ visit knock := by
    refine ⟨by decide +kernel, by decide +kernel, fun decoder negotiated => ?_⟩
    obtain ⟨dialect, asked, speaks⟩ := Phase.exists_dialect_of_negotiated? negotiated
    have known : knock.dialect? = some .hybi13 := by decide +kernel
    obtain rfl := Option.some.inj (known.symm.trans asked)
    obtain rfl := Option.some.inj speaks
    exact ⟨[.text "hi", .close (some 1001)], .hybi13 .fresh, by cbv⟩
  exact ⟨readable, exists_outcome_of_reads greeter ⟨"ws", [], 100⟩ 0 () readable⟩

end Moment

end CashHerald.Session
