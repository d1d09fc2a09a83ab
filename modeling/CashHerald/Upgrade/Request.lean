import CashHerald.Text.Letters
import CashHerald.Text.Pieces
import CashHerald.Text.Utf8
import CashHerald.Upgrade.PolicyProbe
import CashHerald.Wire.Dialect

/-!
Upgrade requests: a request line, header lines, a blank line, and for the older dialect a challenge
of eight octets. Main statement: a head is cut at the first blank line.
-/

namespace CashHerald.Upgrade

/-- A request to speak a dialect of the wire. -/
structure Request where
  method : String
  path : String
  scheme : String
  headers : List (String × String)
  body : Octets
  raw : Octets
  deriving DecidableEq, Repr

/-- The value of the last header with a name, in any case. -/
def headerIn? (headers : List (String × String)) (name : String) : Option String :=
  (headers.reverse.find? fun header => Letters.alike header.1.toList name.toList).map Prod.snd

namespace Request

/-- The value of the request's last header with a name, in any case. -/
def header? (request : Request) (name : String) : Option String :=
  headerIn? request.headers name

/-- The sub-protocols that a client offers, the preferred one first. -/
def subProtocols (request : Request) : List String :=
  match request.header? "Sec-WebSocket-Protocol" with
  | none => []
  | some value =>
    ((Pieces.splitAll (fun character => character == ',' || character == ' ')
      value.toList).filter (!·.isEmpty)).map String.ofList

/-- The version a client asks for; a key of the older dialect tells its version. -/
def version? (request : Request) : Option String :=
  request.header? "Sec-WebSocket-Version" <|>
    request.header? "Sec-WebSocket-Draft" <|>
      (request.header? "Sec-WebSocket-Key1").map fun _ => "76"

/-- The dialect of the version that a client asks for. -/
def dialect? (request : Request) : Option Wire.Dialect :=
  match request.version? with
  | none => none
  | some version =>
    if version = "7" ∨ version = "8" ∨ version = "13" then some .hybi13
    else if version = "76" then some .draft76
    else none

end Request

/-- The head of a request names a method and a path and has headers. -/
structure Head where
  method : String
  path : String
  headers : List (String × String)
  deriving DecidableEq, Repr

namespace Head

/-- The octets before and after the first blank line, behind the octets read so far, the latest
first. -/
def cutBehind? (before : Octets) : Octets → Option (Octets × Octets)
  | [] => none
  | 13 :: 10 :: 13 :: 10 :: rest => some (before.reverse, rest)
  | byte :: rest => cutBehind? (byte :: before) rest

/-- The octets before and after the first blank line. -/
def cut? (data : Octets) : Option (Octets × Octets) :=
  cutBehind? [] data

/-- The blank line behind a head. -/
def ending : Octets := [13, 10, 13, 10]

/-- A word has at least one character and no blank. -/
def isWord (text : List Char) : Bool :=
  !text.isEmpty && text.all (!Blank.isBlank ·)

/-- The method and the path of a request line, which ends in the version in any case. -/
def requestLine? (line : List Char) : Option (List Char × List Char) :=
  match Pieces.splitFirst? ' ' line with
  | none => none
  | some (method, rest) =>
    match Pieces.splitFirst? ' ' rest with
    | none => none
    | some (path, version) =>
      if isWord method ∧ isWord path ∧ Letters.alike version "HTTP/1.1".toList then
        some (method, path)
      else none

/-- The name and the value of a header line, without the blanks around them. -/
def headerLine? (line : List Char) : Option (String × String) :=
  match Pieces.splitFirst? ':' line with
  | none => none
  | some (name, value) =>
    let name := Blank.trim name
    if name = [] then none else some (String.ofList name, String.ofList (Blank.trim value))

/-- The head written by a text. -/
def ofText? (text : List Char) : Option Head :=
  match Pieces.lines text with
  | [] => none
  | line :: lines =>
    match requestLine? line, lines.mapM headerLine? with
    | some (method, path), some headers =>
      some ⟨String.ofList method, String.ofList path, headers⟩
    | _, _ => none

/-- The head written by octets in UTF-8. -/
def ofOctets? (octets : Octets) : Option Head :=
  match Utf8.decode? octets with
  | none => none
  | some text => ofText? text.toList

/-- The request with a body and the octets it was read from. -/
def request (head : Head) (scheme : String) (body raw : Octets) : Request :=
  ⟨head.method, head.path, scheme, head.headers, body, raw⟩

/-- The number of octets that belong to a request behind its head. -/
def bodyLength (head : Head) : Nat :=
  if (headerIn? head.headers "Sec-WebSocket-Key1").isSome then 8 else 0

end Head

/-- What the first octets of a connection are. -/
inductive Reading where
  | request (request : Request)
  | policyProbe
  | incomplete
  | invalid
  deriving DecidableEq, Repr

namespace Reading

/-- Octets that start like a tag can only be a policy probe. -/
def ofTag (data : Octets) : Reading :=
  if PolicyProbe.isProbe data then .policyProbe
  else if PolicyProbe.mayBecomeProbe data then .incomplete
  else .invalid

/-- Other octets can only be a request. -/
def ofHead (scheme : String) (data : Octets) : Reading :=
  match Head.cut? data with
  | none => .incomplete
  | some (front, rest) =>
    match Head.ofOctets? front with
    | none => .invalid
    | some head =>
      match Octets.splitExactly? head.bodyLength rest with
      | none => .incomplete
      | some (body, _) => .request (head.request scheme body (front ++ Head.ending ++ body))

/-- Classifies the first octets of a connection. -/
def of (scheme : String) (data : Octets) : Reading :=
  if data.head? = some 0x3c then ofTag data else ofHead scheme data

end Reading

/-- A head is cut exactly at the first blank line. -/
theorem Head.cutBehind?_eq_some {before data front rest : Octets}
    (found : cutBehind? before data = some (front, rest)) :
    before.reverse ++ data = front ++ ending ++ rest := by
  fun_induction cutBehind? before data with
  | case1 => cases found
  | case2 before rest =>
    cases found
    simp [ending]
  | case3 before byte rest _ inductionHypothesis =>
    rw [← inductionHypothesis found]
    simp

theorem Head.cut?_eq_some {data front rest : Octets} (found : cut? data = some (front, rest)) :
    data = front ++ ending ++ rest :=
  cutBehind?_eq_some found

end CashHerald.Upgrade
