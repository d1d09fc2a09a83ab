import CashHerald.Proofs.Upgrade.Growing
import CashHerald.Upgrade.Response

/-!
Which upgrade requests are answered. Main statement: a request that has been read is answered with
the response of a dialect exactly if it asks for a version of the dialect, a sub-protocol can be
agreed on, and the keys that the dialect needs are there.
-/

namespace CashHerald

/-- The versions under which a dialect is asked for. -/
def Wire.Dialect.versions : Wire.Dialect → List String
  | .hybi13 => ["7", "8", "13"]
  | .draft76 => ["76"]
  | .flashPolicy => []

namespace Upgrade

/-- The version that a request asks for: the newer header goes before the older one, and a request
that has neither asks for a version with its key. -/
inductive Request.Asks (request : Request) : String → Prop
  | version {value : String} (newer : request.header? "Sec-WebSocket-Version" = some value) :
    Asks request value
  | draft {value : String} (newer : request.header? "Sec-WebSocket-Version" = none)
    (older : request.header? "Sec-WebSocket-Draft" = some value) : Asks request value
  | key {value : String} (newer : request.header? "Sec-WebSocket-Version" = none)
    (older : request.header? "Sec-WebSocket-Draft" = none)
    (keyed : request.header? "Sec-WebSocket-Key1" = some value) : Asks request "76"

/-- The sub-protocol on which a server and a client agree: none if either names none, or the first
of the client's that the server has. -/
inductive Shares (server client : List String) : Option String → Prop
  | none (unnamed : server = [] ∨ client = []) : Shares server client none
  | first {earlier later : List String} {name : String} (named : server ≠ [])
    (offered : client = earlier ++ name :: later) (unknown : ∀ other ∈ earlier, other ∉ server)
    (known : name ∈ server) : Shares server client (some name)

/-- A request has the keys that a dialect needs, and the numbers of the older dialect can be read
from them. -/
def Request.Keyed (request : Request) : Wire.Dialect → Prop
  | .hybi13 => ∃ key, request.header? "Sec-WebSocket-Key" = some key
  | .draft76 => ∃ firstKey secondKey firstNumber secondNumber,
    request.header? "Sec-WebSocket-Key1" = some firstKey ∧
      request.header? "Sec-WebSocket-Key2" = some secondKey ∧
      Challenge.keyNumber firstKey = .ok firstNumber ∧
      Challenge.keyNumber secondKey = .ok secondNumber
  | .flashPolicy => False

/-- A request can be answered by a server in a dialect, with a sub-protocol or with none. -/
structure Request.Eligible (server : List String) (request : Request) (dialect : Wire.Dialect)
    (subProtocol : Option String) : Prop where
  version : ∃ version ∈ dialect.versions, request.Asks version
  shared : Shares server request.subProtocols subProtocol
  keyed : request.Keyed dialect

theorem Request.Eligible.ne_flashPolicy {server : List String} {request : Request}
    {dialect : Wire.Dialect} {subProtocol : Option String}
    (eligible : request.Eligible server dialect subProtocol) : dialect ≠ .flashPolicy := by
  rintro rfl
  exact eligible.keyed

theorem version?_eq_some_iff {request : Request} {version : String} :
    request.version? = some version ↔ request.Asks version := by
  unfold Request.version?
  constructor
  · intro found
    rcases newer : request.header? "Sec-WebSocket-Version" with _ | value
    · rcases older : request.header? "Sec-WebSocket-Draft" with _ | value
      · rcases keyed : request.header? "Sec-WebSocket-Key1" with _ | value
        · simp [newer, older, keyed] at found
        · obtain rfl : "76" = version := by simpa [newer, older, keyed] using found
          exact .key newer older keyed
      · obtain rfl : value = version := by simpa [newer, older] using found
        exact .draft newer older
    · obtain rfl : value = version := by simpa [newer] using found
      exact .version newer
  · rintro (newer | ⟨newer, older⟩ | ⟨newer, older, keyed⟩)
    · simp [newer]
    · simp [newer, older]
    · simp [newer, older, keyed]

/-- The dialect of a request is the one with the version that it asks for. -/
theorem dialect?_eq_some_iff {request : Request} {dialect : Wire.Dialect} :
    request.dialect? = some dialect ↔ ∃ version ∈ dialect.versions, request.Asks version := by
  simp only [← version?_eq_some_iff]
  unfold Request.dialect?
  rcases request.version? with _ | version
  · simp
  · cases dialect <;> simp [Wire.Dialect.versions] <;> grind

theorem agree_eq_ok_iff {server client : List String} {subProtocol : Option String} :
    agree server client = .ok subProtocol ↔ Shares server client subProtocol := by
  unfold agree
  split
  · rename_i unnamed
    constructor
    · intro same
      cases same
      exact .none unnamed
    · rintro (_ | ⟨named, rfl, -, -⟩)
      · rfl
      · simp [named] at unnamed
  · rename_i named
    obtain ⟨server_ne, client_ne⟩ := not_or.mp named
    rcases found : client.find? (server.contains ·) with _ | name
    · have missing := List.find?_eq_none.mp found
      refine iff_of_false (by simp) ?_
      rintro (unnamed | ⟨-, rfl, -, known⟩)
      · exact named unnamed
      · exact missing _ (List.mem_append_right _ List.mem_cons_self) (by simpa using known)
    · obtain ⟨known, earlier, later, rfl, unknown⟩ := List.find?_eq_some_iff_append.mp found
      constructor
      · intro same
        cases same
        exact .first server_ne rfl (by simpa using unknown) (by simpa using known)
      · rintro (unnamed | @⟨otherEarlier, otherLater, other, -, offered, others, shared⟩)
        · exact absurd unnamed named
        · have first : (earlier ++ name :: later).find? (server.contains ·) = some other := by
            rw [offered]
            exact List.find?_eq_some_iff_append.mpr
              ⟨by simpa using shared, otherEarlier, otherLater, rfl, by simpa using others⟩
          exact congrArg Except.ok (found.symm.trans first)

/-- What a reading takes for the challenge of a request with a key has eight octets. -/
theorem Reading.length_body {scheme : String} {data : Octets} {request : Request}
    (read : Reading.of scheme data = .request request) {key : String}
    (keyed : request.header? "Sec-WebSocket-Key1" = some key) : request.body.length = 8 := by
  obtain ⟨-, ⟨front, body, head, consists⟩, -⟩ := Reading.exists_consists read
  have same := consists.request
  have length := consists.length
  have known : headerIn? head.headers "Sec-WebSocket-Key1" = some key := by
    rw [← keyed, same]
    rfl
  rw [Head.bodyLength, known] at length
  rw [same]
  exact length

theorem exists_hybi13_iff (request : Request) (subProtocol : Option String) :
    (∃ response, Response.hybi13 request subProtocol = .ok response) ↔
      request.Keyed .hybi13 := by
  unfold Response.hybi13 Response.required Request.Keyed
  rcases request.header? "Sec-WebSocket-Key" with _ | key
  · exact iff_of_false (fun ⟨_, answered⟩ => by cases answered) (by simp)
  · exact iff_of_true ⟨_, rfl⟩ ⟨key, rfl⟩

theorem exists_answer_iff (firstKey secondKey : String) (challenge : Octets) :
    (∃ answer, Challenge.answer firstKey secondKey challenge = .ok answer) ↔
      (∃ number, Challenge.keyNumber firstKey = .ok number) ∧
        ∃ number, Challenge.keyNumber secondKey = .ok number := by
  unfold Challenge.answer
  rcases Challenge.keyNumber firstKey with refusal | first
  · exact iff_of_false (fun ⟨_, answered⟩ => by cases answered) (by simp)
  rcases Challenge.keyNumber secondKey with refusal | second
  · exact iff_of_false (fun ⟨_, answered⟩ => by cases answered) (by simp)
  exact iff_of_true ⟨_, rfl⟩ ⟨⟨first, rfl⟩, second, rfl⟩

theorem exists_draft76_iff {request : Request}
    (whole : (request.header? "Sec-WebSocket-Key1").isSome = true → request.body.length = 8)
    (subProtocol : Option String) :
    (∃ response, Response.draft76 request subProtocol = .ok response) ↔
      request.Keyed .draft76 := by
  unfold Response.draft76 Response.required Request.Keyed
  rcases firstKnown : request.header? "Sec-WebSocket-Key1" with _ | firstKey
  · exact iff_of_false (fun ⟨_, answered⟩ => by cases answered) (by simp)
  rcases secondKnown : request.header? "Sec-WebSocket-Key2" with _ | secondKey
  · exact iff_of_false (fun ⟨_, answered⟩ => by cases answered) (by simp)
  have eight : request.body.length = 8 := whole (by rw [firstKnown]; rfl)
  have answers := exists_answer_iff firstKey secondKey request.body
  simp only [bind, Except.bind, eight, ne_eq, not_true_eq_false, if_false]
  rcases answered : Challenge.answer firstKey secondKey request.body with refusal | answer
  · refine iff_of_false (fun ⟨_, same⟩ => by cases same) ?_
    rintro ⟨_, _, firstNumber, secondNumber, ⟨⟩, ⟨⟩, first, second⟩
    obtain ⟨_, found⟩ := answers.mpr ⟨⟨firstNumber, first⟩, secondNumber, second⟩
    cases answered.symm.trans found
  · obtain ⟨⟨firstNumber, first⟩, secondNumber, second⟩ := answers.mp ⟨answer, answered⟩
    exact iff_of_true ⟨_, rfl⟩
      ⟨firstKey, secondKey, firstNumber, secondNumber, rfl, rfl, first, second⟩

/-- A request that has been read is answered in a dialect exactly if it has the keys. -/
theorem exists_ofDialect_iff {scheme : String} {data : Octets} {request : Request}
    (read : Reading.of scheme data = .request request) {dialect : Wire.Dialect}
    (named : dialect ≠ .flashPolicy) (subProtocol : Option String) :
    (∃ response, Response.ofDialect dialect request subProtocol = .ok response) ↔
      request.Keyed dialect := by
  cases dialect with
  | hybi13 => exact exists_hybi13_iff request subProtocol
  | draft76 =>
    refine exists_draft76_iff (fun keyed => ?_) subProtocol
    obtain ⟨key, keyed⟩ := Option.isSome_iff_exists.mp keyed
    exact Reading.length_body read keyed
  | flashPolicy => exact absurd rfl named

end Upgrade

end CashHerald
