import CashHerald.Json.Number
import CashHerald.Json.Quoted

/-!
Reading a JSON value from its text. Lists and objects may be nested up to a fixed depth; each fault
is reported where reading stops. An object whose first member has a reserved name stands for the
value that the member writes as a text of its own.
-/

namespace CashHerald.Json

namespace Parser

/-- Lists and objects are nested at most this deep. -/
def depthLimit : Nat := 127

/-- Reads the rest of a fixed word. -/
def word (value : Value) : Octets → Cursor → Reading Value
  | [], cursor => .ok (value, cursor)
  | expected :: others, cursor =>
    match cursor.rest with
    | [] => cursor.faultHere .endInValue
    | byte :: rest =>
      if byte = expected then word value others ⟨cursor.index + 1, rest⟩
      else Cursor.faultHere ⟨cursor.index + 1, rest⟩ .expectedIdentifier

/-- Reads the items of a list from the next one on, behind those read earlier, the latest first.
Every item takes at least one octet, so the octets left bound their number. -/
def items (element : Cursor → Reading Value) :
    Nat → List Value → Cursor → Reading (List Value)
  | 0, _, cursor => cursor.faultNext .endInList
  | bound + 1, earlier, cursor =>
    match element cursor with
    | .error reason => .error reason
    | .ok (value, behind) =>
      let next := behind.skipBlanks
      match next.rest with
      | [] => next.faultNext .endInList
      | 0x5d :: rest => .ok ((value :: earlier).reverse, ⟨next.index + 1, rest⟩)
      | 0x2c :: rest =>
        let following := Cursor.skipBlanks ⟨next.index + 1, rest⟩
        match following.rest with
        | [] => following.faultNext .endInValue
        | 0x5d :: _ => following.faultNext .trailingComma
        | _ => items element bound (value :: earlier) following
      | _ => next.faultNext .expectedListCommaOrEnd

/-- Reads a list behind its opening bracket. -/
def list (element : Cursor → Reading Value) (cursor : Cursor) : Reading Value :=
  let next := cursor.skipBlanks
  match next.rest with
  | [] => next.faultNext .endInList
  | 0x5d :: rest => .ok (.array [], ⟨next.index + 1, rest⟩)
  | _ =>
    match items element next.rest.length [] next with
    | .error reason => .error reason
    | .ok (values, behind) => .ok (.array values, behind)

/-- Reads a member at the quote that opens its name. -/
def member (element : Cursor → Reading Value) (cursor : Cursor) : Reading (String × Value) :=
  match Quoted.read ⟨cursor.index + 1, cursor.rest.drop 1⟩ with
  | .error reason => .error reason
  | .ok (name, behind) =>
    let next := behind.skipBlanks
    match next.rest with
    | [] => next.faultNext .endInObject
    | 0x3a :: rest =>
      match element ⟨next.index + 1, rest⟩ with
      | .error reason => .error reason
      | .ok (value, last) => .ok ((name, value), last)
    | _ => next.faultNext .expectedColon

/-- Reads the members of an object from the next one on, behind those read earlier, the latest
first. Every member takes at least one octet, so the octets left bound their number. -/
def members (element : Cursor → Reading Value) :
    Nat → List (String × Value) → Cursor → Reading (List (String × Value))
  | 0, _, cursor => cursor.faultNext .endInObject
  | bound + 1, earlier, cursor =>
    match member element cursor with
    | .error reason => .error reason
    | .ok (found, behind) =>
      let next := behind.skipBlanks
      match next.rest with
      | [] => next.faultNext .endInObject
      | 0x7d :: rest => .ok ((found :: earlier).reverse, ⟨next.index + 1, rest⟩)
      | 0x2c :: rest =>
        let following := Cursor.skipBlanks ⟨next.index + 1, rest⟩
        match following.rest with
        | [] => following.faultNext .endInValue
        | 0x22 :: _ => members element bound (found :: earlier) following
        | 0x7d :: _ => following.faultNext .trailingComma
        | _ => following.faultNext .keyNotString
      | _ => next.faultNext .expectedObjectCommaOrEnd

/-- Reads a value that is neither a list nor an object, at a place that is not blank. -/
def simple (cursor : Cursor) : Reading Value :=
  match cursor.rest with
  | [] => cursor.faultNext .endInValue
  | byte :: rest =>
    let behind : Cursor := ⟨cursor.index + 1, rest⟩
    if byte = 0x6e then word .null [0x75, 0x6c, 0x6c] behind
    else if byte = 0x74 then word (.boolean true) [0x72, 0x75, 0x65] behind
    else if byte = 0x66 then word (.boolean false) [0x61, 0x6c, 0x73, 0x65] behind
    else if byte = 0x2d then Number.unsigned true behind
    else if (Number.digit? byte).isSome then Number.unsigned false cursor
    else if byte = 0x22 then
      match Quoted.read behind with
      | .error reason => .error reason
      | .ok (content, last) => .ok (.text content, last)
    else cursor.faultNext .expectedValue

/-- The name of the first member of an object that stands for the value in the member's text. -/
def enclosingName : String := "$serde_json::private::RawValue"

/-- Reads the text that writes an enclosed value. -/
def enclosedText (cursor : Cursor) : Reading String :=
  match cursor.rest.head? with
  | some 0x5b => cursor.faultHere (.notText .list)
  | some 0x7b => cursor.faultHere (.notText .object)
  | _ =>
    match simple cursor with
    | .error reason => .error reason
    | .ok (.text content, last) => .ok (content, last)
    | .ok (value, last) => last.faultHere (.notText value.kind)

/-- Reads the end of an object that holds no further member. -/
def endOfObject (value : Value) (cursor : Cursor) : Reading Value :=
  let next := cursor.skipBlanks
  match next.rest with
  | [] => next.faultNext .endInObject
  | 0x7d :: rest => .ok (value, ⟨next.index + 1, rest⟩)
  | 0x2c :: _ => next.faultNext .trailingComma
  | _ => next.faultNext .trailingCharacters

/-- Reads an enclosed value behind the name of its member. -/
def enclosed (inner : String → Except ParseError Value) (cursor : Cursor) : Reading Value :=
  let next := cursor.skipBlanks
  match next.rest with
  | [] => next.faultNext .endInObject
  | 0x3a :: rest =>
    match enclosedText (Cursor.skipBlanks ⟨next.index + 1, rest⟩) with
    | .error reason => .error reason
    | .ok (content, behind) =>
      match inner content with
      | .error error => .error (.inside error)
      | .ok value => endOfObject value behind
  | _ => next.faultNext .expectedColon

/-- Reads an object behind its opening brace. -/
def object (inner : String → Except ParseError Value) (element : Cursor → Reading Value)
    (cursor : Cursor) : Reading Value :=
  let next := cursor.skipBlanks
  match next.rest with
  | [] => next.faultNext .endInObject
  | 0x7d :: rest => .ok (.object [], ⟨next.index + 1, rest⟩)
  | 0x22 :: rest =>
    match Quoted.read ⟨next.index + 1, rest⟩ with
    | .error reason => .error reason
    | .ok (name, behind) =>
      if name = enclosingName then enclosed inner behind
      else
        match members element next.rest.length [] next with
        | .error reason => .error reason
        | .ok (values, last) => .ok (.object values, last)
  | _ => next.faultNext .keyNotString

/-- Reads a value that may be nested `depth` deep, with a reader for the texts of enclosed ones. -/
def value (inner : String → Except ParseError Value) (depth : Nat) (cursor : Cursor) :
    Reading Value :=
  let here := cursor.skipBlanks
  match here.rest with
  | 0x5b :: rest =>
    match depth with
    | 0 => here.faultNext .recursionLimit
    | lower + 1 => list (value inner lower) ⟨here.index + 1, rest⟩
  | 0x7b :: rest =>
    match depth with
    | 0 => here.faultNext .recursionLimit
    | lower + 1 => object inner (value inner lower) ⟨here.index + 1, rest⟩
  | _ => simple here

/-- The value that fills a text, with blanks around it. -/
def whole (inner : String → Except ParseError Value) (text : String) : Except ParseError Value :=
  let octets := Utf8.encode text
  match value inner depthLimit ⟨0, octets⟩ with
  | .error stop => .error (stop.error octets)
  | .ok (found, behind) =>
    let last := behind.skipBlanks
    if last.rest = [] then .ok found
    else .error (ParseError.locate octets .trailingCharacters (last.index + 1))

/-- The value that fills a text, where texts stand inside texts fewer than `bound` deep. -/
def wholeWithin : Nat → String → Except ParseError Value
  | 0 => fun _ => .error ⟨.endInValue, 1, 0⟩
  | bound + 1 => whole (wholeWithin bound)

end Parser

/-- The value that fills a text, with blanks around it. A text inside another is shorter, so the
octets bound how deep they stand. -/
def parse (text : String) : Except ParseError Value :=
  Parser.wholeWithin (text.utf8ByteSize + 1) text

end CashHerald.Json
