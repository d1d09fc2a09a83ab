import CashHerald.Json.Fault
import CashHerald.Octets.Hex

/-!
Values in JSON and their compact text: members in their order, no blanks, and in strings an escape
only where one is needed. Main statement: only the quote, the backslash and control characters are
escaped.
-/

namespace CashHerald.Json

/-- A number is an integer or a double. -/
inductive Value where
  | null
  | boolean (value : Bool)
  | integer (value : Int)
  | double (value : Double)
  | text (content : String)
  | array (items : List Value)
  | object (members : List (String × Value))
  deriving Repr

namespace Value

/-- The value of the last member with a name. -/
def get? (name : String) : List (String × Value) → Option Value
  | [] => none
  | (key, value) :: rest =>
    match get? name rest with
    | some later => some later
    | none => if key = name then some value else none

/-- The text of the last member with a name, if it is a text. -/
def textOf? (name : String) (members : List (String × Value)) : Option String :=
  match get? name members with
  | some (.text content) => some content
  | _ => none

/-- The name of a value's type. -/
def typeName : Value → String
  | .null => "Null"
  | .boolean _ => "Boolean"
  | .integer _ => "Integer"
  | .double _ => "Float"
  | .text _ => "String"
  | .array _ => "Array"
  | .object _ => "Object"

def kind : Value → Kind
  | .null => .null
  | .boolean value => .boolean value
  | .integer value => .integer value
  | .double value => .double value
  | .text _ => .text
  | .array _ => .list
  | .object _ => .object

end Value

namespace Writer

/-- A character inside a string: escaped shortly, escaped by its number, or as it is. -/
def escape (character : Char) : List Char :=
  if character = '"' then ['\\', '"']
  else if character = '\\' then ['\\', '\\']
  else if character = '\u0008' then ['\\', 'b']
  else if character = '\u000c' then ['\\', 'f']
  else if character = '\n' then ['\\', 'n']
  else if character = '\r' then ['\\', 'r']
  else if character = '\t' then ['\\', 't']
  else if character.toNat < 32 then '\\' :: 'u' :: '0' :: '0' :: Hex.pair character.toNat.toUInt8
  else [character]

/-- A string between quotes. -/
def quoted (content : String) : String :=
  String.ofList ('"' :: (content.toList.flatMap escape ++ ['"']))

/-- Joins the texts of items with commas. -/
def commas (items : List String) : String :=
  ",".intercalate items

mutual

/-- The compact text of a value. -/
def render : Value → String
  | .null => "null"
  | .boolean value => if value then "true" else "false"
  | .integer value => toString value
  | .double value => value.text
  | .text content => quoted content
  | .array items => "[" ++ commas (renderItems items) ++ "]"
  | .object members => "\x7b" ++ commas (renderMembers members) ++ "\x7d"

/-- The texts of items. -/
def renderItems : List Value → List String
  | [] => []
  | item :: rest => render item :: renderItems rest

/-- The texts of members. -/
def renderMembers : List (String × Value) → List String
  | [] => []
  | (name, value) :: rest => (quoted name ++ ":" ++ render value) :: renderMembers rest

end

/-- Only the quote, the backslash and control characters are escaped. -/
theorem escape_eq_self {character : Char} (visible : 32 ≤ character.toNat)
    (noQuote : character ≠ '"') (noBackslash : character ≠ '\\') :
    escape character = [character] := by
  have apart : ∀ control : Char, control.toNat < 32 → character ≠ control := by
    rintro control small rfl
    omega
  simp [escape, noQuote, noBackslash, apart '\u0008' (by decide), apart '\u000c' (by decide),
    apart '\n' (by decide), apart '\r' (by decide), apart '\t' (by decide),
    Nat.not_lt.mpr visible]

end Writer

end CashHerald.Json
