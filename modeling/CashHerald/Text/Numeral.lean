import CashHerald.Octets.Hex

/-!
Natural numbers at the start of a text, in a base of at most sixteen.
-/

namespace CashHerald.Numeral

/-- The number of a digit in a base of at most sixteen. -/
def digit? (base : Nat) (character : Char) : Option Nat :=
  (Hex.value? character).filter (· < base)

def isDigit (base : Nat) (character : Char) : Bool :=
  (digit? base character).isSome

/-- The number that digits write, the highest first. -/
def value (base : Nat) (digits : List Char) : Nat :=
  digits.foldl (fun total digit => base * total + (digit? base digit).getD 0) 0

/-- The digits that a text starts with. -/
def leading (base : Nat) (text : List Char) : List Char :=
  text.takeWhile (isDigit base)

/-- The text behind its leading digits. -/
def behind (base : Nat) (text : List Char) : List Char :=
  text.dropWhile (isDigit base)

/-- Reads all leading digits, at least one, as a number below a limit. -/
def read? (base limit : Nat) (text : List Char) : Option (Nat × List Char) :=
  let digits := leading base text
  if digits ≠ [] ∧ value base digits < limit then
    some (value base digits, behind base text)
  else none

/-- Reads a text of digits alone, at least one, as a number below a limit. -/
def ofText? (base limit : Nat) (text : List Char) : Option Nat :=
  match read? base limit text with
  | some (number, []) => some number
  | _ => none

end CashHerald.Numeral
