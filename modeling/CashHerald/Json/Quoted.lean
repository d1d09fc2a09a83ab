import CashHerald.Json.Fault
import CashHerald.Text.Utf8

/-!
Strings in JSON, read behind their opening quote. An escape by number names a UTF-16 unit; a pair of
surrogates names one character, and a surrogate alone is refused.
-/

namespace CashHerald.Json.Quoted

def hexDigit? (byte : UInt8) : Option Nat :=
  if 0x30 ≤ byte ∧ byte ≤ 0x39 then some (byte.toNat - 0x30)
  else if 0x61 ≤ byte ∧ byte ≤ 0x66 then some (byte.toNat - 0x57)
  else if 0x41 ≤ byte ∧ byte ≤ 0x46 then some (byte.toNat - 0x37)
  else none

/-- The unit written by the next four digits; a fault comes with its distance. -/
def unit : Octets → Except (Fault × Nat) Nat
  | first :: second :: third :: fourth :: _ =>
    match hexDigit? first, hexDigit? second, hexDigit? third, hexDigit? fourth with
    | some a, some b, some c, some d => .ok (((a * 16 + b) * 16 + c) * 16 + d)
    | _, _, _, _ => .error (.invalidEscape, 4)
  | short => .error (.endInString, short.length)

/-- A unit that only starts a pair. -/
def isLeading (unit : Nat) : Bool :=
  0xd800 ≤ unit && unit ≤ 0xdbff

/-- A unit that only ends a pair. -/
def isTrailing (unit : Nat) : Bool :=
  0xdc00 ≤ unit && unit ≤ 0xdfff

/-- The UTF-8 octets of a character with a number. -/
def character (number : Nat) : Octets :=
  String.utf8EncodeChar (Char.ofNat number)

/-- The end of a pair behind its leading unit: the octets of its character and their distance. -/
def trailing (leading : Nat) : Octets → Except (Fault × Nat) (Octets × Nat)
  | [] => .error (.endInString, 0)
  | [first] =>
    if first = 0x5c then .error (.endInString, 1) else .error (.unexpectedEndOfHexEscape, 1)
  | first :: second :: rest =>
    if first ≠ 0x5c then .error (.unexpectedEndOfHexEscape, 1)
    else if second ≠ 0x75 then .error (.unexpectedEndOfHexEscape, 2)
    else
      match unit rest with
      | .error (fault, distance) => .error (fault, 2 + distance)
      | .ok value =>
        if isTrailing value then
          .ok (character ((leading - 0xd800) * 0x400 + (value - 0xdc00) + 0x10000), 6)
        else .error (.loneSurrogate, 6)

/-- The octets that an escape by number stands for, and how many it takes behind its letter. -/
def numbered (rest : Octets) : Except (Fault × Nat) (Octets × Nat) :=
  match unit rest with
  | .error reason => .error reason
  | .ok value =>
    if isTrailing value then .error (.loneSurrogate, 4)
    else if isLeading value then
      match trailing value (rest.drop 4) with
      | .error (fault, distance) => .error (fault, 4 + distance)
      | .ok (octets, count) => .ok (octets, 4 + count)
    else .ok (character value, 4)

/-- The octet that a short escape stands for. -/
def short? (letter : UInt8) : Option UInt8 :=
  if letter = 0x22 then some 0x22
  else if letter = 0x5c then some 0x5c
  else if letter = 0x2f then some 0x2f
  else if letter = 0x62 then some 0x08
  else if letter = 0x66 then some 0x0c
  else if letter = 0x6e then some 0x0a
  else if letter = 0x72 then some 0x0d
  else if letter = 0x74 then some 0x09
  else none

/-- The octets that an escape stands for, and how many it takes behind the backslash. -/
def escape : Octets → Except (Fault × Nat) (Octets × Nat)
  | [] => .error (.endInString, 0)
  | letter :: rest =>
    if letter = 0x75 then
      match numbered rest with
      | .error (fault, distance) => .error (fault, 1 + distance)
      | .ok (octets, count) => .ok (octets, 1 + count)
    else
      match short? letter with
      | some octet => .ok ([octet], 1)
      | none => .error (.invalidEscape, 1)

/-- Reads a string behind the octets read so far, the latest first. -/
def readBehind (earlier : Octets) (index : Nat) : Octets → Reading String
  | [] => .error (.here .endInString index)
  | byte :: rest =>
    if byte = 0x22 then
      .ok ((Utf8.decode? earlier.reverse).getD "", ⟨index + 1, rest⟩)
    else if byte = 0x5c then
      match escape rest with
      | .error (fault, distance) => .error (.here fault (index + 1 + distance))
      | .ok (octets, count) =>
        readBehind (octets.reverse ++ earlier) (index + 1 + count) (rest.drop count)
    else if byte < 0x20 then .error (.here .controlCharacter (index + 1))
    else readBehind (byte :: earlier) (index + 1) rest
termination_by octets => octets.length
decreasing_by all_goals (simp; try omega)

/-- Reads a string behind its opening quote. -/
def read (cursor : Cursor) : Reading String :=
  readBehind [] cursor.index cursor.rest

end CashHerald.Json.Quoted
