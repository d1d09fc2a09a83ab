import CashHerald.Proofs.Text.Lines
import CashHerald.Proofs.Upgrade.Growing
import Mathlib.Data.List.Forall2

/-!
The language of upgrade requests: a head in front of the first blank line, with a request line and
header lines, and a challenge behind it if the head has a key for one. Main statement: octets that
do not start like a probe are read as a request, as incomplete or as invalid as this language says,
and what has been said of them once is said of all that go on from them.
-/

namespace CashHerald.Upgrade

namespace Head

/-- The first blank line of some octets stands between its front and the octets behind it. -/
structure EndsFirst (front behind data : Octets) : Prop where
  whole : data = front ++ ending ++ behind
  first : ∀ earlier later, data = earlier ++ ending ++ later → front.length ≤ earlier.length

section FirstEnd

variable {front behind data : Octets}

theorem endsFirst_iff_of_leads (leads : ending <+: data) :
    EndsFirst front behind data ↔ front = [] ∧ data = ending ++ behind := by
  obtain ⟨later, rfl⟩ := leads
  constructor
  · rintro ⟨whole, first⟩
    obtain rfl : front = [] := List.length_eq_zero_iff.mp (Nat.le_zero.mp (first [] later rfl))
    exact ⟨rfl, whole⟩
  · rintro ⟨rfl, same⟩
    exact ⟨same, fun _ _ _ => Nat.zero_le _⟩

theorem endsFirst_cons_iff {byte : UInt8} (inside : ¬ ending <+: byte :: data) :
    EndsFirst front behind (byte :: data) ↔
      ∃ rest, front = byte :: rest ∧ EndsFirst rest behind data := by
  constructor
  · rintro ⟨whole, first⟩
    cases front with
    | nil => exact absurd ⟨behind, whole.symm⟩ inside
    | cons head rest =>
      obtain ⟨rfl, same⟩ := List.cons.inj whole
      refine ⟨rest, rfl, same, fun earlier later cut => ?_⟩
      exact Nat.le_of_succ_le_succ (first (byte :: earlier) later (congrArg (byte :: ·) cut))
  · rintro ⟨rest, rfl, rfl, first⟩
    refine ⟨rfl, fun earlier later cut => ?_⟩
    cases earlier with
    | nil => exact absurd ⟨later, cut.symm⟩ inside
    | cons head earlier =>
      exact Nat.succ_le_succ (first earlier later (List.cons.inj cut).2)

theorem cutBehind?_eq_some_iff {before found : Octets} :
    cutBehind? before data = some (found, behind) ↔
      ∃ front, found = before.reverse ++ front ∧ EndsFirst front behind data := by
  induction data generalizing before with
  | nil => exact iff_of_false nofun fun ⟨front, _, ends⟩ => by simpa [ending] using ends.whole
  | cons byte data inductionHypothesis =>
    rw [cutBehind?_cons]
    by_cases leads : ending <+: byte :: data
    · simp only [if_pos leads, endsFirst_iff_of_leads leads]
      obtain ⟨later, same⟩ := leads
      rw [← same]
      simp [ending, eq_comm]
    · rw [if_neg leads, inductionHypothesis]
      simp only [endsFirst_cons_iff leads]
      constructor
      · rintro ⟨rest, rfl, ends⟩
        exact ⟨byte :: rest, by simp, rest, rfl, ends⟩
      · rintro ⟨_, rfl, rest, rfl, ends⟩
        exact ⟨rest, by simp, ends⟩

/-- Octets are cut at their first blank line. -/
theorem cut?_eq_some_iff : cut? data = some (front, behind) ↔ EndsFirst front behind data := by
  rw [cut?, cutBehind?_eq_some_iff]
  simp

theorem cut?_eq_none_iff : cut? data = none ↔ ¬ ending <:+: data := by
  have general : ∀ before, cutBehind? before data = none ↔ ¬ ending <:+: data := by
    induction data with
    | nil => simp [cutBehind?, ending]
    | cons byte data inductionHypothesis =>
      intro before
      rw [cutBehind?_cons, List.infix_cons_iff]
      by_cases leads : ending <+: byte :: data
      · simp [leads]
      · simp [leads, inductionHypothesis]
  exact general []

end FirstEnd

/-- A word has characters, and none of them is a blank. -/
structure Word (text : List Char) : Prop where
  nonempty : text ≠ []
  visible : ∀ character ∈ text, Blank.isBlank character = false

/-- A request line: two words and the version in any case, with one space between each. -/
structure RequestLine (method path line : List Char) : Prop where
  spaced : ∃ version, line = method ++ ' ' :: (path ++ ' ' :: version) ∧
    Letters.alike version "HTTP/1.1".toList = true
  method : Word method
  path : Word path

/-- A header line: a name that is not blank, the first colon of the line, and a value. The blanks
around the name and the value do not belong to them. -/
def HeaderLine (line : List Char) (header : String × String) : Prop :=
  ∃ name value, line = name ++ ':' :: value ∧ ':' ∉ name ∧
    (∃ character ∈ name, Blank.isBlank character = false) ∧
    Blank.Trimmed name header.1.toList ∧ Blank.Trimmed value header.2.toList

/-- A head is written in octets as a text in UTF-8: a request line, and a line for each header. -/
def Written (head : Head) (octets : Octets) : Prop :=
  ∃ text line lines, octets = Utf8.encode text ∧ Pieces.Lined text.toList (line :: lines) ∧
    RequestLine head.method.toList head.path.toList line ∧
    List.Forall₂ HeaderLine lines head.headers

/-- A head has a key for a challenge. -/
def Challenged (head : Head) : Prop :=
  ∃ header ∈ head.headers, Letters.alike header.1.toList "Sec-WebSocket-Key1".toList = true

section Lines

variable {line method path : List Char} {head : Head}

theorem isWord_iff {text : List Char} : isWord text = true ↔ Word text := by
  constructor
  · intro word
    obtain ⟨nonempty, visible⟩ : text ≠ [] ∧
        ∀ character ∈ text, Blank.isBlank character = false := by
      simpa [isWord] using word
    exact ⟨nonempty, visible⟩
  · rintro ⟨nonempty, visible⟩
    simpa [isWord] using And.intro nonempty visible

theorem Word.space_notMem {text : List Char} (word : Word text) : ' ' ∉ text := by
  intro mem
  have visible := word.visible ' ' mem
  exact absurd visible (by decide)

theorem requestLine?_eq_some_iff :
    requestLine? line = some (method, path) ↔ RequestLine method path line := by
  constructor
  · intro found
    unfold requestLine? at found
    split at found
    · cases found
    · rename_i first rest cut
      split at found
      · cases found
      · rename_i second version cutAgain
        obtain ⟨⟨isMethod, isPath, alike⟩, same⟩ := Option.ite_none_right_eq_some.mp found
        cases same
        obtain ⟨rfl, -⟩ := Pieces.splitFirst?_eq_some_iff.mp cut
        obtain ⟨rfl, -⟩ := Pieces.splitFirst?_eq_some_iff.mp cutAgain
        exact ⟨⟨version, rfl, alike⟩, isWord_iff.mp isMethod, isWord_iff.mp isPath⟩
  · rintro ⟨⟨version, rfl, alike⟩, isMethod, isPath⟩
    have first := Pieces.splitFirst?_eq_some_iff.mpr
      ⟨(rfl : method ++ ' ' :: (path ++ ' ' :: version) = _), isMethod.space_notMem⟩
    have second := Pieces.splitFirst?_eq_some_iff.mpr
      ⟨(rfl : path ++ ' ' :: version = _), isPath.space_notMem⟩
    simp only [requestLine?, first, second]
    exact if_pos ⟨isWord_iff.mpr isMethod, isWord_iff.mpr isPath, alike⟩

theorem headerLine?_eq_some_iff {header : String × String} :
    headerLine? line = some header ↔ HeaderLine line header := by
  obtain ⟨name, value⟩ := header
  constructor
  · intro found
    unfold headerLine? at found
    split at found
    · cases found
    · rename_i front back cut
      obtain ⟨rfl, absent⟩ := Pieces.splitFirst?_eq_some_iff.mp cut
      obtain ⟨named, same⟩ := Option.ite_none_left_eq_some.mp found
      cases same
      refine ⟨front, back, rfl, absent, ?_, ?_, ?_⟩
      · by_contra blank
        push Not at blank
        exact named (Blank.trim_eq_nil_iff.mpr fun character mem =>
          eq_true_of_ne_false (blank character mem))
      · rw [String.toList_ofList]
        exact Blank.trimmed_trim front
      · rw [String.toList_ofList]
        exact Blank.trimmed_trim back
  · rintro ⟨front, back, rfl, absent, ⟨character, mem, visible⟩, trimmed, trimmedValue⟩
    have cut := Pieces.splitFirst?_eq_some_iff.mpr ⟨(rfl : front ++ ':' :: back = _), absent⟩
    have named : Blank.trim front ≠ [] := by
      intro nothing
      have blank := Blank.trim_eq_nil_iff.mp nothing character mem
      rw [visible] at blank
      cases blank
    simp only [headerLine?, cut]
    rw [if_neg named, trimmed.trim_eq, trimmedValue.trim_eq, String.ofList_toList,
      String.ofList_toList]

theorem mapM_headerLine?_eq_some_iff {lines : List (List Char)} {headers : List (String × String)} :
    lines.mapM headerLine? = some headers ↔ List.Forall₂ HeaderLine lines headers := by
  induction lines generalizing headers with
  | nil => simp [eq_comm]
  | cons line lines inductionHypothesis =>
    simp only [List.mapM_cons, Option.bind_eq_bind, Option.bind_eq_some_iff,
      headerLine?_eq_some_iff, inductionHypothesis, List.forall₂_cons_left_iff, Option.pure_def,
      Option.some.injEq]
    constructor
    · rintro ⟨header, written, headers, others, rfl⟩
      exact ⟨header, headers, written, others, rfl⟩
    · rintro ⟨header, headers, written, others, rfl⟩
      exact ⟨header, written, headers, others, rfl⟩

theorem ofText?_eq_some_iff {text : List Char} :
    ofText? text = some head ↔ ∃ line lines, Pieces.Lined text (line :: lines) ∧
      RequestLine head.method.toList head.path.toList line ∧
      List.Forall₂ HeaderLine lines head.headers := by
  simp only [← Pieces.lines_eq_iff, ← requestLine?_eq_some_iff, ← mapM_headerLine?_eq_some_iff]
  constructor
  · intro found
    unfold ofText? at found
    split at found
    · cases found
    · rename_i line lines same
      split at found
      · rename_i method path headers first others
        cases found
        refine ⟨line, lines, same, ?_, others⟩
        rw [String.toList_ofList, String.toList_ofList]
        exact first
      · cases found
  · rintro ⟨line, lines, same, first, others⟩
    simp only [ofText?, same, first, others, String.ofList_toList]

/-- A head is read exactly from the octets it is written in. -/
theorem ofOctets?_eq_some_iff {octets : Octets} :
    ofOctets? octets = some head ↔ Written head octets := by
  constructor
  · intro found
    unfold ofOctets? at found
    split at found
    · cases found
    · rename_i text decoded
      obtain ⟨line, lines, parts⟩ := ofText?_eq_some_iff.mp found
      exact ⟨text, line, lines, Utf8.decode?_eq_some_iff.mp decoded, parts⟩
  · rintro ⟨text, line, lines, rfl, parts⟩
    have decoded := Utf8.decode?_eq_some_iff.mpr (rfl : Utf8.encode text = _)
    simp only [ofOctets?, decoded]
    exact ofText?_eq_some_iff.mpr ⟨line, lines, parts⟩

theorem challenged_iff :
    (headerIn? head.headers "Sec-WebSocket-Key1").isSome = true ↔ Challenged head := by
  rw [headerIn?, Option.isSome_map, List.find?_isSome]
  simp [Challenged]

theorem Challenged.bodyLength (challenged : Challenged head) : head.bodyLength = 8 :=
  if_pos (challenged_iff.mpr challenged)

theorem bodyLength_of_not_challenged (free : ¬ Challenged head) : head.bodyLength = 0 :=
  if_neg (mt challenged_iff.mp free)

theorem lt_bodyLength_iff {length : Nat} :
    length < head.bodyLength ↔ Challenged head ∧ length < 8 := by
  by_cases challenged : Challenged head
  · simp [challenged.bodyLength, challenged]
  · simp [bodyLength_of_not_challenged challenged, challenged]

theorem eq_bodyLength_iff {body : Octets} : body.length = head.bodyLength ↔
    (Challenged head → body.length = 8) ∧ (¬ Challenged head → body = []) := by
  by_cases challenged : Challenged head
  · simp [challenged.bodyLength, challenged]
  · simp [bodyLength_of_not_challenged challenged, challenged]

end Lines

end Head

namespace Reading

section Language

variable {scheme : String} {data : Octets}

theorem ofHead_eq_incomplete_iff : ofHead scheme data = .incomplete ↔
    ¬ Head.ending <:+: data ∨ ∃ (front behind : Octets) (head : Head),
      Head.EndsFirst front behind data ∧ head.Written front ∧ head.Challenged ∧
        behind.length < 8 := by
  simp only [← Head.cut?_eq_none_iff, ← Head.cut?_eq_some_iff, ← Head.ofOctets?_eq_some_iff,
    ← Head.lt_bodyLength_iff]
  unfold ofHead
  rcases cut : Head.cut? data with _ | ⟨front, rest⟩
  · simp
  rcases names : Head.ofOctets? front with _ | head
  · simp [names]
  rcases split : Octets.splitExactly? head.bodyLength rest with _ | ⟨body, behind⟩
  · simpa [names, split] using Octets.splitExactly?_eq_none_iff.mp split
  · obtain ⟨rfl, length⟩ := Octets.splitExactly?_eq_some_iff.mp split
    simp [names, split, length]

theorem ofHead_eq_invalid_iff : ofHead scheme data = .invalid ↔
    ∃ front behind, Head.EndsFirst front behind data ∧ ∀ head : Head, ¬ head.Written front := by
  simp only [← Head.cut?_eq_some_iff, ← Head.ofOctets?_eq_some_iff]
  unfold ofHead
  rcases cut : Head.cut? data with _ | ⟨front, rest⟩
  · simp
  rcases names : Head.ofOctets? front with _ | head
  · simp [names]
  rcases split : Octets.splitExactly? head.bodyLength rest with _ | ⟨body, behind⟩
  all_goals simp [names, split]

theorem ofHead_eq_request_iff {request : Request} : ofHead scheme data = .request request ↔
    ∃ (front body behind : Octets) (head : Head), Head.EndsFirst front (body ++ behind) data ∧
      head.Written front ∧ (head.Challenged → body.length = 8) ∧ (¬ head.Challenged → body = []) ∧
      request = head.request scheme body (front ++ Head.ending ++ body) := by
  constructor
  · intro read
    obtain ⟨⟨behind, same⟩, front, body, head, consists⟩ := exists_consists_of_ofHead read
    have cut := consists.cut_front (body ++ behind)
    rw [← List.append_assoc, ← consists.raw, same] at cut
    obtain ⟨challenged, free⟩ := Head.eq_bodyLength_iff.mp consists.length
    exact ⟨front, body, behind, head, Head.cut?_eq_some_iff.mp cut,
      Head.ofOctets?_eq_some_iff.mp consists.names, challenged, free,
      consists.raw ▸ consists.request⟩
  · rintro ⟨front, body, behind, head, ends, written, challenged, free, rfl⟩
    have length := Head.eq_bodyLength_iff.mpr ⟨challenged, free⟩
    have cut := Head.cut?_eq_some_iff.mpr ends
    have names := Head.ofOctets?_eq_some_iff.mpr written
    have split := Octets.splitExactly?_eq_some_iff.mpr ⟨(rfl : body ++ behind = _), length⟩
    simp only [ofHead, cut, names, split]

theorem ofHead_ne_policyProbe : ofHead scheme data ≠ .policyProbe := by
  unfold ofHead
  repeat' split
  all_goals simp

/-- What has been said of octets once is said of all that go on from them. -/
theorem ofHead_append (decided : ofHead scheme data ≠ .incomplete) (more : Octets) :
    ofHead scheme (data ++ more) = ofHead scheme data := by
  cases read : ofHead scheme data with
  | incomplete => exact absurd read decided
  | policyProbe => exact absurd read ofHead_ne_policyProbe
  | invalid =>
    obtain ⟨front, behind, ends, unwritten⟩ := ofHead_eq_invalid_iff.mp read
    obtain rfl := ends.whole
    have cut := Head.cut?_congr (Head.cut?_eq_some_iff.mpr ends) (behind ++ more)
    rw [← List.append_assoc] at cut
    exact ofHead_eq_invalid_iff.mpr ⟨front, _, Head.cut?_eq_some_iff.mp cut, unwritten⟩
  | request request =>
    obtain ⟨⟨behind, rfl⟩, front, body, head, consists⟩ := exists_consists_of_ofHead read
    rw [List.append_assoc]
    exact consists.ofHead _

theorem of_append (untagged : data.head? ≠ some 0x3c) (decided : of scheme data ≠ .incomplete)
    (more : Octets) : of scheme (data ++ more) = of scheme data := by
  have asHead : of scheme data = ofHead scheme data := if_neg untagged
  cases data with
  | nil => exact absurd rfl decided
  | cons byte rest =>
    have still : of scheme (byte :: rest ++ more) = ofHead scheme (byte :: rest ++ more) :=
      if_neg untagged
    rw [asHead] at decided ⊢
    rw [still, ofHead_append decided]

/-- A request is read from all octets that go on from those that it was read from. -/
theorem of_append_of_request {request : Request} (read : of scheme data = .request request)
    (more : Octets) : of scheme (data ++ more) = .request request := by
  obtain ⟨-, -, untagged⟩ := exists_consists read
  rw [of_append untagged (by rw [read]; simp), read]

/-- Octets that do not start like a probe are incomplete without a blank line, or behind a head with
a key for a challenge and fewer than eight octets; they are a request if a head is written in front
of their first blank line and its challenge behind it, and invalid otherwise. -/
theorem of_untagged (untagged : data.head? ≠ some 0x3c) :
    (of scheme data = .incomplete ↔ ¬ Head.ending <:+: data ∨
      ∃ (front behind : Octets) (head : Head), Head.EndsFirst front behind data ∧
        head.Written front ∧ head.Challenged ∧ behind.length < 8) ∧
    (∀ request, of scheme data = .request request ↔
      ∃ (front body behind : Octets) (head : Head), Head.EndsFirst front (body ++ behind) data ∧
        head.Written front ∧ (head.Challenged → body.length = 8) ∧
        (¬ head.Challenged → body = []) ∧ data = request.raw ++ behind ∧
        request = ⟨head.method, head.path, scheme, head.headers, body,
          front ++ Head.ending ++ body⟩) ∧
    (of scheme data = .invalid ↔ ∃ front behind, Head.EndsFirst front behind data ∧
      ∀ head : Head, ¬ head.Written front) ∧
    of scheme data ≠ .policyProbe ∧
    (of scheme data ≠ .incomplete → ∀ more, of scheme (data ++ more) = of scheme data) := by
  refine ⟨?_, fun request => ?_, ?_, ?_, of_append untagged⟩
  all_goals rw [show of scheme data = ofHead scheme data from if_neg untagged]
  · exact ofHead_eq_incomplete_iff
  · rw [ofHead_eq_request_iff]
    constructor
    · rintro ⟨front, body, behind, head, ends, written, challenged, free, rfl⟩
      refine ⟨front, body, behind, head, ends, written, challenged, free, ?_, rfl⟩
      rw [ends.whole, List.append_assoc, List.append_assoc]
      simp [Head.request]
    · rintro ⟨front, body, behind, head, ends, written, challenged, free, -, same⟩
      exact ⟨front, body, behind, head, ends, written, challenged, free, same⟩
  · exact ofHead_eq_invalid_iff
  · exact ofHead_ne_policyProbe

end Language

/-- A request with a key for a challenge, the challenge, and two octets behind it. -/
def challengedVisit : Octets :=
  Utf8.encode "GET / HTTP/1.1\r\n sec-websocket-KEY1:\t1 2 \r\n\r\n" ++
    [1, 2, 3, 4, 5, 6, 7, 8, 129, 0]

theorem of_challengedVisit_append : challengedVisit.head? ≠ some 0x3c ∧ ∀ more,
    of "ws" (challengedVisit ++ more) =
      .request ⟨"GET", "/", "ws", [("sec-websocket-KEY1", "1 2")], [1, 2, 3, 4, 5, 6, 7, 8],
        challengedVisit.take 53⟩ := by
  have untagged : challengedVisit.head? ≠ some 0x3c := by decide +kernel
  obtain ⟨-, -, -, -, kept⟩ := @of_untagged "ws" challengedVisit untagged
  have read : of "ws" challengedVisit =
      .request ⟨"GET", "/", "ws", [("sec-websocket-KEY1", "1 2")], [1, 2, 3, 4, 5, 6, 7, 8],
        challengedVisit.take 53⟩ := by decide +kernel
  refine ⟨untagged, fun more => ?_⟩
  rw [kept (by rw [read]; simp) more, read]

end Reading

end CashHerald.Upgrade
