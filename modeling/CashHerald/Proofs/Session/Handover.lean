import CashHerald.Proofs.Session.Feeds
import CashHerald.Proofs.Session.Handshake

/-!
What is handed over from the handshake to the decoder. Main statement: however the stream of a
client is cut, the decoder of a connection that opens is fed with all that comes behind the head of
the request, but for the eight octets of a challenge if the head has a key for one; the older
dialect always has it, and in the standard dialect these octets are those of frames.
-/

namespace CashHerald.Session

namespace Accepts

variable {settings : Settings} {received : Octets} {request : Upgrade.Request} {details : Details}
  {response : Octets} {decoder : Wire.Decoder}

/-- The octets received are a head, the challenge if the head has a key for one, and the octets
behind the request. -/
theorem exists_head (accepts : Accepts settings received request details response decoder) :
    ∃ (front body : Octets) (head : Upgrade.Head),
      Upgrade.Head.EndsFirst front (body ++ received.drop request.raw.length) received ∧
        head.Written front ∧ request.headers = head.headers ∧
        (head.Challenged → body.length = 8) ∧ (¬ head.Challenged → body = []) := by
  have read := accepts.read
  obtain ⟨-, -, untagged⟩ := Upgrade.Reading.exists_consists read
  rw [Upgrade.Reading.of, if_neg untagged, Upgrade.Reading.ofHead_eq_request_iff] at read
  obtain ⟨front, body, behind, head, ends, written, challenged, free, rfl⟩ := read
  have rest : received.drop (front ++ Upgrade.Head.ending ++ body).length = behind := by
    rw [ends.whole, ← List.append_assoc, List.drop_left]
  refine ⟨front, body, head, ?_, written, rfl, challenged, free⟩
  simpa only [Upgrade.Head.request, rest] using ends

/-- The older dialect is answered only with keys for a challenge. -/
theorem challenged (accepts : Accepts settings received request details response decoder)
    {head : Upgrade.Head} (same : request.headers = head.headers)
    (older : request.dialect? = some .draft76) : head.Challenged := by
  obtain ⟨dialect, subProtocol, eligible⟩ :=
    exists_eligible_of_answer? accepts.read accepts.answers
  have asked := Upgrade.dialect?_eq_some_iff.mpr eligible.version
  obtain rfl := Option.some.inj (older.symm.trans asked)
  obtain ⟨firstKey, -, -, -, keyed, -⟩ := eligible.keyed
  rw [← Upgrade.Head.challenged_iff, ← same]
  exact Option.isSome_of_eq_some keyed

end Accepts

namespace Watched

variable {Memory : Type}

/-- In every run of a connection that opens, the octets read are a head, the challenge if the head
has a key for one, and the octets that the decoder is fed with, in order and each once. The older
dialect always has a challenge; in the standard one all octets behind the head are fed exactly if
the head has no key for one. While the session waits for more, its decoder is the one that has been
fed with these octets, and the handler has heard of their messages. -/
theorem feeds_of_opened (handler : Handler Memory) (settings : Settings) (client : Nat)
    (memory : Memory) (turns : List (Turn Memory))
    (opened : ((start memory).run handler settings client turns).moment.callbacks ≠ []) :
    let watched := (start memory).run handler settings client turns
    ∃ (front behind : Octets) (head : Upgrade.Head) (request : Upgrade.Request)
      (dialect : Wire.Dialect) (fresh : Wire.Decoder),
      Upgrade.Head.EndsFirst front behind watched.reads.flatten ∧ head.Written front ∧
      Upgrade.Reading.of settings.scheme watched.reads.flatten = .request request ∧
      request.headers = head.headers ∧ request.dialect? = some dialect ∧
      watched.moment.connection.details.map (·.dialect) = some dialect ∧
      (head.Challenged →
        ∃ challenge, challenge.length = 8 ∧ behind = challenge ++ watched.feeds.flatten) ∧
      (¬ head.Challenged → watched.feeds.flatten = behind) ∧
      (dialect = .draft76 → head.Challenged) ∧
      (dialect = .hybi13 → (watched.feeds.flatten = behind ↔ ¬ head.Challenged)) ∧
      dialect.decoder? = some fresh ∧
      ∀ decoder, watched.moment.activity = .waiting (.speaking decoder) →
        ∃ accepted, Wire.Feeding.transcript Wire.Decoder.feed fresh watched.feeds =
            ⟨accepted, none, decoder⟩ ∧
          watched.moment.callbacks = .opened :: Event.ofMessages accepted.flatten := by
  intro watched
  obtain ⟨stage, disciplined, serves⟩ := serves_run handler settings client memory turns
  cases serves with
  | undecided untold => exact absurd untold opened
  | unserved untold => exact absurd untold opened
  | opening accepts untold => exact absurd untold opened
  | @opened request details response fresh events accepts told fed known hears =>
    obtain ⟨front, body, head, ends, written, same, challenged, free⟩ := accepts.exists_head
    rw [← fed] at ends
    obtain ⟨asked, -⟩ := exists_decoder_of_answer? accepts.answers
    refine ⟨front, _, head, request, details.dialect, fresh, ends, written, accepts.read, same,
      asked, by rw [known]; rfl, fun keyed => ⟨body, challenged keyed, rfl⟩, fun unkeyed => ?_,
      fun older => ?_, fun _ => ⟨fun whole keyed => ?_, fun unkeyed => ?_⟩, accepts.speaks,
      fun decoder waits => ?_⟩
    · rw [free unkeyed]
      rfl
    · rw [older] at asked
      exact accepts.challenged same asked
    · have nothing : body = [] := List.self_eq_append_left.mp whole
      have eight := challenged keyed
      rw [nothing] at eight
      cases eight
    · rw [free unkeyed]
      rfl
    · rw [waits] at hears
      rcases hears.waiting with ⟨accepted, other, speaks, transcript, rfl⟩ | ended
      · cases speaks
        exact ⟨accepted, transcript, told⟩
      · cases ended

/-- A client shakes hands in two reads, and what it says comes with the second. -/
def cutVisit : List (Turn Unit) :=
  [.arrive (.data (Moment.visit.take 20)), .proceed, .arrive (.data (Moment.visit.drop 20)),
    .proceed, .proceed]

theorem feeds_of_cutVisit :
    let watched := (start ()).run Moment.greeter ⟨"ws", [], 100⟩ 0 cutVisit
    watched.moment.callbacks ≠ [] ∧ ∃ (front : Octets) (head : Upgrade.Head),
      Upgrade.Head.EndsFirst front (Moment.visit.drop Moment.knock.raw.length)
          watched.reads.flatten ∧
        head.Written front ∧ ¬ head.Challenged ∧
        watched.feeds.flatten = Moment.visit.drop Moment.knock.raw.length := by
  intro watched
  obtain ⟨opened, known, fed, cut⟩ : watched.moment.callbacks ≠ [] ∧
      watched.moment.connection.details.map (·.dialect) = some .hybi13 ∧
      watched.feeds.flatten = Moment.visit.drop Moment.knock.raw.length ∧
      (Upgrade.Head.cut? watched.reads.flatten).map (·.2) =
        some (Moment.visit.drop Moment.knock.raw.length) := by
    decide +kernel
  obtain ⟨front, behind, head, request, dialect, fresh, ends, written, -, -, -, speaks, -, -, -,
    standard, -⟩ := feeds_of_opened Moment.greeter ⟨"ws", [], 100⟩ 0 () cutVisit opened
  rw [Upgrade.Head.cut?_eq_some_iff.mpr ends] at cut
  obtain rfl := Option.some.inj cut
  obtain rfl := Option.some.inj (speaks.symm.trans known)
  exact ⟨opened, front, head, ends, written, (standard rfl).mp fed, fed⟩

/-- The head of a request for the standard dialect that has a key of the older one as well. -/
def keyedHead : Octets :=
  Utf8.encode ("GET / HTTP/1.1\r\nSec-WebSocket-Version: 13\r\n" ++
    "Sec-WebSocket-Key: dGhlIHNhbXBsZSBub25jZQ==\r\nSec-WebSocket-Key1: 1 2")

/-- A connection opens in the standard dialect, and a frame behind the head of the request is taken
for a challenge. -/
theorem frame_swallowed :
    let watched := (start ()).run Moment.greeter ⟨"ws", [], 100⟩ 0
      [.arrive (.data (keyedHead ++ Upgrade.Head.ending ++ greetingFrame)), .proceed, .proceed,
        .proceed, .proceed]
    Upgrade.Head.EndsFirst keyedHead greetingFrame watched.reads.flatten ∧
      watched.moment.connection.details.map (·.dialect) = some .hybi13 ∧
      watched.moment.callbacks = [.opened] ∧ watched.feeds = [] ∧ greetingFrame ≠ [] := by
  intro watched
  refine ⟨Upgrade.Head.cut?_eq_some_iff.mp ?_, ?_⟩
  · decide +kernel
  · decide +kernel

end Watched

end CashHerald.Session
