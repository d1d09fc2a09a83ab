import CashHerald.Proofs.Text.Encoding
import CashHerald.Proofs.Upgrade.Grammar
import CashHerald.Proofs.Upgrade.Negotiation

/-!
Responses to upgrade requests line by line. No value of a request holds a line end, and none comes
about where a value joins the text around it. Main statement: a response has the lines of its
dialect in front of its first blank line, and nothing but the answer of the older dialect behind it.
-/

namespace CashHerald.Upgrade

open Pieces (lineEnd Lined)

namespace Response

/-- A response has some lines in front of its first blank line, and some octets behind it. -/
def Composed (lines : List String) (behind response : Octets) : Prop :=
  ∃ text, Head.EndsFirst (Utf8.encode text) behind response ∧
    Lined text.toList (lines.map String.toList)

/-- A line that can be told from the next one: it has characters and no line end. -/
structure Sound (line : String) : Prop where
  nonempty : line ≠ ""
  unbroken : ¬ lineEnd <:+: line.toList

section Heads

variable {lines : List String}

theorem flatMap_lines (present : lines ≠ []) :
    (lines.map (· ++ "\r\n")).flatMap String.toList =
      Pieces.joinLines (lines.map String.toList) ++ lineEnd := by
  induction lines with
  | nil => exact absurd rfl present
  | cons line lines inductionHypothesis =>
    cases lines with
    | nil => simp [Pieces.joinLines, lineEnd]
    | cons next lines =>
      rw [List.map_cons, List.flatMap_cons, inductionHypothesis (List.cons_ne_nil next lines)]
      simp [Pieces.joinLines]

/-- The octets of a head are those of its joined lines, and a blank line. -/
theorem head_eq (present : lines ≠ []) : head lines =
    Utf8.encode (String.ofList (Pieces.joinLines (lines.map String.toList))) ++ Head.ending := by
  have text : String.join (lines.map (· ++ "\r\n")) ++ "\r\n" =
      String.ofList (Pieces.joinLines (lines.map String.toList)) ++ "\r\n\r\n" := by
    apply String.toList_inj.mp
    simp only [String.toList_append, String.toList_join, flatMap_lines present, String.toList_ofList,
      List.append_assoc]
    rfl
  rw [head, text, Utf8.encode_append]
  rfl

/-- Lines with characters in them are not followed by a blank line before the last one is. -/
theorem not_ending_infix {text : String} {shown : List (List Char)} (lined : Lined text.toList shown)
    (sound : [] ∉ shown) : ¬ Head.ending <:+: Utf8.encode text ++ [13, 10, 13] := by
  intro inside
  have octets : Utf8.encode text ++ [13, 10, 13] =
      (text.toList ++ lineEnd ++ ['\r']).flatMap String.utf8EncodeChar := by
    rw [List.flatMap_append, List.flatMap_append, ← Utf8.encode_eq_flatMap, List.append_assoc]
    rfl
  have single : String.utf8EncodeChar '\r' = [13] := rfl
  have blank : lineEnd ++ lineEnd <:+: text.toList ++ lineEnd ++ ['\r'] :=
    Utf8.infix_of_flatMap single (by decide) (octets ▸ inside)
  have last : Lined ['\r'] [['\r']] := ⟨by simp, rfl, by decide⟩
  have empty := (lined.append last).nil_mem blank
  rw [List.mem_append] at empty
  exact empty.elim sound (by simp)

theorem composed_head (present : lines ≠ []) (sound : ∀ line ∈ lines, Sound line) (behind : Octets) :
    Composed lines behind (head lines ++ behind) := by
  have lined : Lined (String.ofList (Pieces.joinLines (lines.map String.toList))).toList
      (lines.map String.toList) := by
    rw [String.toList_ofList]
    refine ⟨mt List.map_eq_nil_iff.mp present, rfl, ?_⟩
    simpa using fun line mem => (sound line mem).unbroken
  have shown : [] ∉ lines.map String.toList := by
    rw [List.mem_map]
    rintro ⟨line, mem, nothing⟩
    exact (sound line mem).nonempty (String.toList_eq_nil_iff.mp nothing)
  refine ⟨_, ⟨congrArg (· ++ behind) (head_eq present), fun earlier later cut => ?_⟩, lined⟩
  by_contra short
  -- An earlier blank line would stand in front of the last line feed of this one.
  apply not_ending_infix lined shown
  rw [head_eq present] at cut
  have leads : earlier ++ Head.ending <+: _ ++ Head.ending ++ behind := ⟨later, cut.symm⟩
  refine (List.suffix_append earlier Head.ending).isInfix.trans
    (List.prefix_of_prefix_length_le leads ?_ ?_).isInfix
  · exact ⟨10 :: behind, by simp [Head.ending]⟩
  · simp only [List.length_append, Head.ending, List.length_cons, List.length_nil]
    omega

end Heads

section Labels

variable {label value : String}

/-- A label keeps a value in one line, since it has no part of a line end. -/
theorem sound_labelled (labelled : label ≠ "") (plain : '\r' ∉ label.toList)
    (unbroken : ¬ lineEnd <:+: value.toList) : Sound (label ++ value) := by
  constructor
  · intro nothing
    exact labelled (String.append_eq_empty_iff.mp nothing).1
  · rw [String.toList_append]
    refine Pieces.unbroken_append (fun broken => ?_) unbroken (.inl fun last => ?_)
    · exact plain (broken.subset List.mem_cons_self)
    · exact plain (List.mem_of_getLast? last)

theorem sound_location {scheme host path : String} (schemeUnbroken : ¬ lineEnd <:+: scheme.toList)
    (hostUnbroken : ¬ lineEnd <:+: host.toList)
    (visible : ∀ character ∈ path.toList, Blank.isBlank character = false) :
    Sound ("Sec-WebSocket-Location: " ++ scheme ++ "://" ++ host ++ path) := by
  have noFeed : '\n' ∉ path.toList := fun mem => absurd (visible _ mem) (by decide)
  have place : ¬ lineEnd <:+: (host ++ path).toList := by
    rw [String.toList_append]
    refine Pieces.unbroken_append hostUnbroken (fun broken => ?_) (.inr fun first => ?_)
    · exact noFeed (broken.subset (List.mem_cons_of_mem _ List.mem_cons_self))
    · exact noFeed (List.mem_of_head? first)
  have shown : Sound ("://" ++ (host ++ path)) := sound_labelled (by decide) (by decide) place
  have whole : ¬ lineEnd <:+: (scheme ++ ("://" ++ (host ++ path))).toList := by
    rw [String.toList_append]
    refine Pieces.unbroken_append schemeUnbroken shown.unbroken (.inr ?_)
    simp
  have line : Sound ("Sec-WebSocket-Location: " ++ (scheme ++ ("://" ++ (host ++ path)))) :=
    sound_labelled (by decide) (by decide) whole
  simpa only [String.append_assoc] using line

end Labels

end Response

section Values

variable {scheme : String} {data : Octets} {request : Request}

/-- The values of headers stand in the lines of their head. -/
theorem Head.Written.unbroken {head : Head} {octets : Octets} (written : head.Written octets)
    {header : String × String} (mem : header ∈ head.headers) :
    ¬ lineEnd <:+: header.2.toList := by
  obtain ⟨text, first, lines, -, lined, -, headers⟩ := written
  obtain ⟨index, inside, rfl⟩ := List.mem_iff_getElem.mp mem
  have bound : index < lines.length := headers.length_eq ▸ inside
  obtain ⟨name, value, whole, -, -, -, trimmed⟩ := headers.get bound inside
  obtain ⟨left, right, between, -, -⟩ := trimmed.between
  have broken := lined.unbroken _ (List.mem_cons_of_mem _ (List.getElem_mem bound))
  rw [List.get_eq_getElem] at whole between
  intro inValue
  apply broken
  rw [whole, between]
  refine inValue.trans ⟨name ++ ':' :: left, right, ?_⟩
  simp

/-- What is read as a request has no line end in its headers' values, no blank in its path and the
scheme that it is read under. -/
theorem Reading.plain (read : Reading.of scheme data = .request request) :
    (∀ name value, request.header? name = some value → ¬ lineEnd <:+: value.toList) ∧
      (∀ character ∈ request.path.toList, Blank.isBlank character = false) ∧
        request.scheme = scheme := by
  obtain ⟨-, ⟨front, body, head, consists⟩, -⟩ := Reading.exists_consists read
  have written := Head.ofOctets?_eq_some_iff.mp consists.names
  have same := consists.request
  refine ⟨fun name value found => ?_, ?_, congrArg Request.scheme same⟩
  · have known : headerIn? head.headers name = some value := by
      rw [← found, same]
      rfl
    obtain ⟨header, first, rfl⟩ := Option.map_eq_some_iff.mp known
    exact written.unbroken (List.mem_reverse.mp (List.mem_of_find?_eq_some first))
  · obtain ⟨text, line, lines, -, -, requestLine, -⟩ := written
    rw [same]
    exact requestLine.path.visible

theorem unbroken_getD (value : Option String)
    (unbroken : ∀ text, value = some text → ¬ lineEnd <:+: text.toList) :
    ¬ lineEnd <:+: (value.getD "").toList := by
  cases value with
  | none => decide
  | some text => exact unbroken text rfl

/-- A sub-protocol that is agreed on is a piece of a header's value. -/
theorem unbroken_of_agree (read : Reading.of scheme data = .request request)
    {server : List String} {name : String}
    (agreed : agree server request.subProtocols = .ok (some name)) :
    ¬ lineEnd <:+: name.toList := by
  have offered : name ∈ request.subProtocols := by
    cases agree_eq_ok_iff.mp agreed with
    | first named offered unknown known =>
      rw [offered]
      exact List.mem_append_right _ List.mem_cons_self
  unfold Request.subProtocols at offered
  split at offered
  · cases offered
  · rename_i value found
    obtain ⟨piece, mem, rfl⟩ := List.mem_map.mp offered
    rw [String.toList_ofList]
    intro broken
    exact (Reading.plain read).1 _ _ found
      (broken.trans (Pieces.infix_of_mem_splitAll (List.mem_filter.mp mem).1))

theorem unbroken_acceptKey (key : String) : ¬ lineEnd <:+: (acceptKey key).toList := by
  intro broken
  rw [acceptKey, Base64.encode, String.toList_ofList] at broken
  have mem := Base64.mem_of_mem_encodeList (broken.subset List.mem_cons_self)
  exact absurd mem (by decide)

end Values

namespace Response

section Dialects

variable {request : Request} {subProtocol : Option String} {response : Octets}

theorem exists_of_hybi13 (answered : hybi13 request subProtocol = .ok response) :
    ∃ key, request.header? "Sec-WebSocket-Key" = some key ∧
      response = head (["HTTP/1.1 101 Switching Protocols", "Upgrade: websocket",
        "Connection: Upgrade"] ++ subProtocolLines subProtocol ++
          ["Sec-WebSocket-Accept: " ++ acceptKey key]) := by
  unfold hybi13 required at answered
  rcases known : request.header? "Sec-WebSocket-Key" with _ | key
  · rw [known] at answered
    cases answered
  · rw [known] at answered
    cases answered
    exact ⟨key, rfl, rfl⟩

theorem exists_of_draft76 (answered : draft76 request subProtocol = .ok response) :
    ∃ firstKey secondKey answer, request.header? "Sec-WebSocket-Key1" = some firstKey ∧
      request.header? "Sec-WebSocket-Key2" = some secondKey ∧
      Challenge.answer firstKey secondKey request.body = .ok answer ∧
      response = head (["HTTP/1.1 101 WebSocket Protocol Handshake", "Upgrade: WebSocket",
        "Connection: Upgrade",
        "Sec-WebSocket-Origin: " ++ (request.header? "Origin").getD "",
        "Sec-WebSocket-Location: " ++ request.scheme ++ "://" ++
          (request.header? "Host").getD "" ++ request.path] ++
        subProtocolLines subProtocol) ++ answer := by
  unfold draft76 required at answered
  rcases firstKnown : request.header? "Sec-WebSocket-Key1" with _ | firstKey
  · rw [firstKnown] at answered
    cases answered
  rcases secondKnown : request.header? "Sec-WebSocket-Key2" with _ | secondKey
  · rw [firstKnown, secondKnown] at answered
    cases answered
  simp only [firstKnown, secondKnown, bind, Except.bind] at answered
  split at answered
  · cases answered
  · rename_i eight
    rcases found : Challenge.answer firstKey secondKey request.body with refusal | answer
    · rw [found] at answered
      cases answered
    · rw [found] at answered
      cases answered
      exact ⟨firstKey, secondKey, answer, rfl, rfl, found, rfl⟩

theorem subProtocolLines_eq (subProtocol : Option String) :
    subProtocolLines subProtocol =
      subProtocol.toList.map ("Sec-WebSocket-Protocol: " ++ ·) := by
  cases subProtocol <;> rfl

end Dialects

/-- The response to a request in a dialect, line by line. -/
inductive Shows (scheme : String) (request : Request) (subProtocol : Option String) :
    Wire.Dialect → Octets → Prop
  | hybi13 {key : String} {response : Octets}
    (known : request.header? "Sec-WebSocket-Key" = some key)
    (composed : Composed
      (["HTTP/1.1 101 Switching Protocols",
        "Upgrade: websocket",
        "Connection: Upgrade"] ++
      subProtocol.toList.map ("Sec-WebSocket-Protocol: " ++ ·) ++
      ["Sec-WebSocket-Accept: " ++ acceptKey key]) [] response) :
    Shows scheme request subProtocol .hybi13 response
  | draft76 {firstKey secondKey : String} {answer response : Octets}
    (first : request.header? "Sec-WebSocket-Key1" = some firstKey)
    (second : request.header? "Sec-WebSocket-Key2" = some secondKey)
    (answered : Challenge.answer firstKey secondKey request.body = .ok answer)
    (composed : Composed
      (["HTTP/1.1 101 WebSocket Protocol Handshake",
        "Upgrade: WebSocket",
        "Connection: Upgrade",
        "Sec-WebSocket-Origin: " ++ (request.header? "Origin").getD "",
        "Sec-WebSocket-Location: " ++ scheme ++ "://" ++ (request.header? "Host").getD "" ++
          request.path] ++
      subProtocol.toList.map ("Sec-WebSocket-Protocol: " ++ ·)) answer response) :
    Shows scheme request subProtocol .draft76 response

section Read

variable {scheme : String} {data : Octets} {request : Request} {server : List String}
  {subProtocol : Option String} {response : Octets}

/-- The line that names an agreed sub-protocol is sound. -/
theorem sound_subProtocolLine (read : Reading.of scheme data = .request request)
    (agreed : agree server request.subProtocols = .ok subProtocol) :
    ∀ line ∈ subProtocol.toList.map ("Sec-WebSocket-Protocol: " ++ ·), Sound line := by
  intro line mem
  obtain ⟨name, known, rfl⟩ := List.mem_map.mp mem
  obtain rfl := Option.mem_toList.mp known
  exact sound_labelled (by decide) (by decide) (unbroken_of_agree read agreed)

theorem composed_hybi13 (read : Reading.of scheme data = .request request)
    (agreed : agree server request.subProtocols = .ok subProtocol)
    (answered : hybi13 request subProtocol = .ok response) :
    ∃ key, request.header? "Sec-WebSocket-Key" = some key ∧
      Composed
        (["HTTP/1.1 101 Switching Protocols",
          "Upgrade: websocket",
          "Connection: Upgrade"] ++
        subProtocol.toList.map ("Sec-WebSocket-Protocol: " ++ ·) ++
        ["Sec-WebSocket-Accept: " ++ acceptKey key]) [] response := by
  obtain ⟨key, known, rfl⟩ := exists_of_hybi13 answered
  refine ⟨key, known, ?_⟩
  rw [subProtocolLines_eq, ← List.append_nil (head _)]
  apply composed_head (by simp)
  have accept : Sound ("Sec-WebSocket-Accept: " ++ acceptKey key) :=
    sound_labelled (by decide) (by decide) (unbroken_acceptKey key)
  simp only [List.forall_mem_append, List.forall_mem_cons]
  exact ⟨⟨⟨⟨by decide, by decide⟩, ⟨by decide, by decide⟩, ⟨by decide, by decide⟩,
    List.forall_mem_nil _⟩, sound_subProtocolLine read agreed⟩, accept, List.forall_mem_nil _⟩

theorem composed_draft76 (unbroken : ¬ lineEnd <:+: scheme.toList)
    (read : Reading.of scheme data = .request request)
    (agreed : agree server request.subProtocols = .ok subProtocol)
    (answered : draft76 request subProtocol = .ok response) :
    ∃ firstKey secondKey answer, request.header? "Sec-WebSocket-Key1" = some firstKey ∧
      request.header? "Sec-WebSocket-Key2" = some secondKey ∧
      Challenge.answer firstKey secondKey request.body = .ok answer ∧ answer.length = 16 ∧
      Composed
        (["HTTP/1.1 101 WebSocket Protocol Handshake",
          "Upgrade: WebSocket",
          "Connection: Upgrade",
          "Sec-WebSocket-Origin: " ++ (request.header? "Origin").getD "",
          "Sec-WebSocket-Location: " ++ scheme ++ "://" ++ (request.header? "Host").getD "" ++
            request.path] ++
        subProtocol.toList.map ("Sec-WebSocket-Protocol: " ++ ·)) answer response := by
  have chosen := sound_subProtocolLine read agreed
  obtain ⟨values, path, rfl⟩ := Reading.plain read
  obtain ⟨firstKey, secondKey, answer, first, second, found, rfl⟩ := exists_of_draft76 answered
  refine ⟨firstKey, secondKey, answer, first, second, found, Challenge.length_answer found, ?_⟩
  rw [subProtocolLines_eq]
  apply composed_head (by simp)
  have origin : Sound ("Sec-WebSocket-Origin: " ++ (request.header? "Origin").getD "") :=
    sound_labelled (by decide) (by decide) (unbroken_getD _ (values "Origin"))
  have location := sound_location unbroken (unbroken_getD _ (values "Host")) path
  simp only [List.forall_mem_append, List.forall_mem_cons]
  exact ⟨⟨⟨by decide, by decide⟩, ⟨by decide, by decide⟩, ⟨by decide, by decide⟩, origin, location,
    List.forall_mem_nil _⟩, chosen⟩

/-- What answers a request in a dialect that has messages has the lines of the dialect. -/
theorem shows_ofDialect {dialect : Wire.Dialect} (unbroken : ¬ lineEnd <:+: scheme.toList)
    (read : Reading.of scheme data = .request request)
    (agreed : agree server request.subProtocols = .ok subProtocol)
    (named : dialect ≠ .flashPolicy)
    (answered : ofDialect dialect request subProtocol = .ok response) :
    Shows scheme request subProtocol dialect response := by
  cases dialect with
  | hybi13 =>
    obtain ⟨key, known, composed⟩ := composed_hybi13 read agreed answered
    exact .hybi13 known composed
  | draft76 =>
    obtain ⟨firstKey, secondKey, answer, first, second, found, -, composed⟩ :=
      composed_draft76 unbroken read agreed answered
    exact .draft76 first second found composed
  | flashPolicy => exact absurd rfl named

end Read

/-- A request that has been read under a scheme without a line end is answered with the lines of its
dialect, the first blank line behind them, and the answer to the challenge of the older dialect,
whatever the values of the request and the agreed sub-protocol are. -/
theorem composed_ofDialect {scheme : String} {data : Octets} {request : Request}
    {server : List String} {subProtocol : Option String}
    (unbroken : ¬ lineEnd <:+: scheme.toList) (read : Reading.of scheme data = .request request)
    (agreed : agree server request.subProtocols = .ok subProtocol) :
    (∀ response, ofDialect .hybi13 request subProtocol = .ok response →
      ∃ key, request.header? "Sec-WebSocket-Key" = some key ∧
        Composed
          (["HTTP/1.1 101 Switching Protocols",
            "Upgrade: websocket",
            "Connection: Upgrade"] ++
          subProtocol.toList.map ("Sec-WebSocket-Protocol: " ++ ·) ++
          ["Sec-WebSocket-Accept: " ++ acceptKey key]) [] response) ∧
    (∀ response, ofDialect .draft76 request subProtocol = .ok response →
      ∃ firstKey secondKey answer, request.header? "Sec-WebSocket-Key1" = some firstKey ∧
        request.header? "Sec-WebSocket-Key2" = some secondKey ∧
        Challenge.answer firstKey secondKey request.body = .ok answer ∧ answer.length = 16 ∧
        Composed
          (["HTTP/1.1 101 WebSocket Protocol Handshake",
            "Upgrade: WebSocket",
            "Connection: Upgrade",
            "Sec-WebSocket-Origin: " ++ (request.header? "Origin").getD "",
            "Sec-WebSocket-Location: " ++ scheme ++ "://" ++ (request.header? "Host").getD "" ++
              request.path] ++
          subProtocol.toList.map ("Sec-WebSocket-Protocol: " ++ ·)) answer response) := by
  exact ⟨fun _ answered => composed_hybi13 read agreed answered,
    fun _ answered => composed_draft76 unbroken read agreed answered⟩

/-- A request for either dialect, with stray carriage returns and line feeds in its values. -/
def strayRequest : Request where
  method := "GET"
  path := "/"
  scheme := "ws"
  headers := [("Host", "a\rB: c"), ("Origin", "d\n\n\rE: f"), ("Sec-WebSocket-Key", "g\rh"),
    ("Sec-WebSocket-Key1", "1 2"), ("Sec-WebSocket-Key2", "3 \n4"),
    ("Sec-WebSocket-Protocol", "i,\nj\r,")]
  body := [13, 10, 13, 10, 13, 10, 13, 10]
  raw := Utf8.encode ("GET / HTTP/1.1\r\nHost: a\rB: c\r\nOrigin:\n\rd\n\n\rE: f\r\r\n" ++
    "Sec-WebSocket-Key: g\rh\r\nSec-WebSocket-Key1: 1 2\r\nSec-WebSocket-Key2: 3 \n4\r\n" ++
    "Sec-WebSocket-Protocol: i,\nj\r,\r\n\r\n\r\n\r\n\r\n\r\n")

theorem composed_strayRequest :
    ¬ lineEnd <:+: "ws".toList ∧
    Reading.of "ws" strayRequest.raw = .request strayRequest ∧
    agree ["\nj\r"] strayRequest.subProtocols = .ok (some "\nj\r") ∧
    (∃ response, ofDialect .hybi13 strayRequest (some "\nj\r") = .ok response ∧
      Composed ["HTTP/1.1 101 Switching Protocols", "Upgrade: websocket", "Connection: Upgrade",
        "Sec-WebSocket-Protocol: \nj\r", "Sec-WebSocket-Accept: " ++ acceptKey "g\rh"]
        [] response) ∧
    ∃ response answer, ofDialect .draft76 strayRequest (some "\nj\r") = .ok response ∧
      answer.length = 16 ∧
      Composed ["HTTP/1.1 101 WebSocket Protocol Handshake", "Upgrade: WebSocket",
        "Connection: Upgrade", "Sec-WebSocket-Origin: d\n\n\rE: f",
        "Sec-WebSocket-Location: ws://a\rB: c/",
        "Sec-WebSocket-Protocol: \nj\r"] answer response := by
  have unbroken : ¬ lineEnd <:+: "ws".toList := by decide
  have read : Reading.of "ws" strayRequest.raw = .request strayRequest := by decide +kernel
  have agreed : agree ["\nj\r"] strayRequest.subProtocols = .ok (some "\nj\r") := by
    decide +kernel
  obtain ⟨newer, older⟩ := composed_ofDialect unbroken read agreed
  refine ⟨unbroken, read, agreed, ?_, ?_⟩
  · have named : Wire.Dialect.hybi13 ≠ .flashPolicy := by decide
    obtain ⟨response, answered⟩ := (exists_ofDialect_iff read named (some "\nj\r")).mpr
      ⟨"g\rh", by decide +kernel⟩
    obtain ⟨key, known, composed⟩ := newer response answered
    obtain rfl : "g\rh" = key := Option.some.inj ((by decide +kernel : some "g\rh" =
      strayRequest.header? "Sec-WebSocket-Key").trans known)
    exact ⟨response, answered, composed⟩
  · have named : Wire.Dialect.draft76 ≠ .flashPolicy := by decide
    obtain ⟨response, answered⟩ := (exists_ofDialect_iff read named (some "\nj\r")).mpr
      ⟨"1 2", "3 \n4", 12, 34, by decide +kernel, by decide +kernel, by decide +kernel,
        by decide +kernel⟩
    obtain ⟨firstKey, secondKey, answer, -, -, -, length, composed⟩ := older response answered
    have origin : (strayRequest.header? "Origin").getD "" = "d\n\n\rE: f" := by
      decide +kernel
    have host : (strayRequest.header? "Host").getD "" = "a\rB: c" := by decide +kernel
    rw [origin, host] at composed
    exact ⟨response, answer, answered, length, composed⟩

end Response

end CashHerald.Upgrade
