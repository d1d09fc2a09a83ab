import CashHerald.Json.Shortest
import CashHerald.Octets.Basic

/-!
What can be wrong with a JSON text, where it is, and the wording.
-/

namespace CashHerald.Json

/-- What a value is, with its content if it is simple. -/
inductive Kind where
  | null
  | boolean (value : Bool)
  | integer (value : Int)
  | double (value : Double)
  | text
  | list
  | object
  deriving DecidableEq, Repr

/-- The wording for what a value is. -/
def Kind.description : Kind → String
  | .null => "null"
  | .boolean value => "boolean `" ++ (if value then "true" else "false") ++ "`"
  | .integer value => "integer `" ++ toString value ++ "`"
  | .double value => "floating point `" ++ value.text ++ "`"
  | .text => "string"
  | .list => "sequence"
  | .object => "map"

inductive Fault where
  | endInList
  | endInObject
  | endInString
  | endInValue
  | expectedColon
  | expectedListCommaOrEnd
  | expectedObjectCommaOrEnd
  | expectedIdentifier
  | expectedValue
  | invalidEscape
  | invalidNumber
  | numberOutOfRange
  | controlCharacter
  | keyNotString
  | loneSurrogate
  | notText (found : Kind)
  | trailingComma
  | trailingCharacters
  | unexpectedEndOfHexEscape
  | recursionLimit
  deriving DecidableEq, Repr

/-- The wording of a fault. -/
def Fault.reason : Fault → String
  | .endInList => "EOF while parsing a list"
  | .endInObject => "EOF while parsing an object"
  | .endInString => "EOF while parsing a string"
  | .endInValue => "EOF while parsing a value"
  | .expectedColon => "expected `:`"
  | .expectedListCommaOrEnd => "expected `,` or `]`"
  | .expectedObjectCommaOrEnd => "expected `,` or `\x7d`"
  | .expectedIdentifier => "expected ident"
  | .expectedValue => "expected value"
  | .invalidEscape => "invalid escape"
  | .invalidNumber => "invalid number"
  | .numberOutOfRange => "number out of range"
  | .controlCharacter => "control character (\\u0000-\\u001F) found while parsing a string"
  | .keyNotString => "key must be a string"
  | .loneSurrogate => "lone leading surrogate in hex escape"
  | .notText found => "invalid type: " ++ found.description ++ ", expected raw value"
  | .trailingComma => "trailing comma"
  | .trailingCharacters => "trailing characters"
  | .unexpectedEndOfHexEscape => "unexpected end of hex escape"
  | .recursionLimit => "recursion limit exceeded"

/-- A fault with its line, counted from one, and its column in octets. -/
structure ParseError where
  fault : Fault
  line : Nat
  column : Nat
  deriving DecidableEq, Repr

namespace ParseError

def message (error : ParseError) : String :=
  s!"{error.fault.reason} at line {error.line} column {error.column}"

/-- A fault behind the first `index` octets of a text. -/
def locate (octets : Octets) (fault : Fault) (index : Nat) : ParseError :=
  let front := octets.take index
  ⟨fault, 1 + front.count 10, (front.reverse.takeWhile (· ≠ 10)).length⟩

end ParseError

/-- The text from some place on. -/
structure Cursor where
  index : Nat
  rest : Octets
  deriving DecidableEq, Repr

/-- Reading stops at a fault behind some octets, or because a text inside the text is faulty. -/
inductive Stop where
  | here (fault : Fault) (index : Nat)
  | inside (error : ParseError)
  deriving DecidableEq, Repr

/-- The error of a text whose reading stops. A faulty text inside is blamed at its own place. -/
def Stop.error (octets : Octets) : Stop → ParseError
  | .here fault index => ParseError.locate octets fault index
  | .inside error => error

/-- A reader returns a value and the place behind it, or stops. -/
abbrev Reading (Result : Type) := Except Stop (Result × Cursor)

namespace Cursor

/-- A fault behind what has been read. -/
def faultHere {Result : Type} (cursor : Cursor) (fault : Fault) : Reading Result :=
  .error (.here fault cursor.index)

/-- A fault at the next octet, or at the end if there is none. -/
def faultNext {Result : Type} (cursor : Cursor) (fault : Fault) : Reading Result :=
  .error (.here fault (if cursor.rest = [] then cursor.index else cursor.index + 1))

def isBlank (byte : UInt8) : Bool :=
  byte = 0x20 || byte = 0x0a || byte = 0x09 || byte = 0x0d

/-- The place behind `index` octets and the blanks that follow. -/
def behindBlanks (index : Nat) : Octets → Cursor
  | [] => ⟨index, []⟩
  | byte :: rest => if isBlank byte then behindBlanks (index + 1) rest else ⟨index, byte :: rest⟩

/-- The next place that is not blank. -/
def skipBlanks (cursor : Cursor) : Cursor :=
  behindBlanks cursor.index cursor.rest

end Cursor

end CashHerald.Json
