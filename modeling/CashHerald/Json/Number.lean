import CashHerald.Json.Fault
import CashHerald.Json.Value

/-!
Numbers in JSON. An integer that fits into 64 bits stays one; every other number is a double, which
may not be infinite. The significand keeps as many digits as fit into 64 bits. Main statement: an
integer is one exactly if it fits into 64 bits with its sign.
-/

namespace CashHerald.Json.Number

/-- The digits of a number: those that fit into 64 bits, how many they are, and how many more came
behind them. -/
structure Digits where
  significand : Nat
  kept : Nat
  dropped : Nat
  next : Cursor
  deriving DecidableEq, Repr

def digit? (byte : UInt8) : Option Nat :=
  if 0x30 ≤ byte ∧ byte ≤ 0x39 then some (byte.toNat - 0x30) else none

/-- Reads digits behind a significand. -/
def digitsBehind (significand kept dropped index : Nat) : Octets → Digits
  | [] => ⟨significand, kept, dropped, ⟨index, []⟩⟩
  | byte :: rest =>
    match digit? byte with
    | none => ⟨significand, kept, dropped, ⟨index, byte :: rest⟩⟩
    | some digit =>
      let longer := significand * 10 + digit
      if dropped = 0 ∧ longer < UInt64.size then
        digitsBehind longer (kept + 1) 0 (index + 1) rest
      else digitsBehind significand kept (dropped + 1) (index + 1) rest

/-- Reads all digits behind a significand. -/
def digits (significand : Nat) (cursor : Cursor) : Digits :=
  digitsBehind significand 0 0 cursor.index cursor.rest

/-- A significand with its sign. -/
def signed (negative : Bool) (significand : Nat) : Int :=
  if negative then -(significand : Int) else significand

/-- A double that ends before a place. -/
def ofParts (negative : Bool) (significand : Nat) (exponent : Int) (next : Cursor) :
    Reading Value :=
  match Double.ofDecimal? negative significand exponent with
  | none => next.faultHere .numberOutOfRange
  | some value => .ok (.double value, next)

/-- An exponent is kept within 32 bits. -/
def clamp (exponent : Int) : Int :=
  max (-(1 <<< 31 : Nat)) (min ((1 <<< 31 : Nat) - 1) exponent)

/-- The digits of an exponent as far as they fit into 32 bits, and whether all do. -/
def exponentBehind (total index : Nat) : Octets → Nat × Bool × Cursor
  | [] => (total, true, ⟨index, []⟩)
  | byte :: rest =>
    match digit? byte with
    | none => (total, true, ⟨index, byte :: rest⟩)
    | some digit =>
      if total * 10 + digit < 1 <<< 31 then exponentBehind (total * 10 + digit) (index + 1) rest
      else (total, false, ⟨index + 1, rest⟩)

/-- Reads an exponent behind its sign. -/
def exponentDigits (negative : Bool) (significand : Nat) (start : Int) (negativeExponent : Bool)
    (cursor : Cursor) : Reading Value :=
  match cursor.rest with
  | [] => cursor.faultHere .endInValue
  | byte :: rest =>
    match digit? byte with
    | none => Cursor.faultHere ⟨cursor.index + 1, rest⟩ .invalidNumber
    | some digit =>
      match exponentBehind digit (cursor.index + 1) rest with
      | (total, true, next) =>
        let exponent := if negativeExponent then start - total else start + total
        ofParts negative significand (clamp exponent) next
      | (_, false, next) =>
        if significand ≠ 0 ∧ negativeExponent = false then next.faultHere .numberOutOfRange
        else .ok (.double (Double.zero negative), (digits 0 next).next)

/-- Reads an exponent behind its letter. -/
def exponent (negative : Bool) (significand : Nat) (start : Int) (cursor : Cursor) :
    Reading Value :=
  match cursor.rest with
  | 0x2b :: rest => exponentDigits negative significand start false ⟨cursor.index + 1, rest⟩
  | 0x2d :: rest => exponentDigits negative significand start true ⟨cursor.index + 1, rest⟩
  | _ => exponentDigits negative significand start false cursor

/-- An exponent follows. -/
def startsExponent (cursor : Cursor) : Bool :=
  cursor.rest.head? = some 0x65 || cursor.rest.head? = some 0x45

/-- The place behind one octet. -/
def behindOne (cursor : Cursor) : Cursor :=
  ⟨cursor.index + 1, cursor.rest.drop 1⟩

/-- Reads an exponent, if there is one, and ends the number. -/
def finish (negative : Bool) (significand : Nat) (start : Int) (cursor : Cursor) :
    Reading Value :=
  if startsExponent cursor then exponent negative significand start (behindOne cursor)
  else ofParts negative significand start cursor

/-- Reads the digits behind a point. -/
def fraction (negative : Bool) (significand : Nat) (start : Int) (cursor : Cursor) :
    Reading Value :=
  let found := digits significand cursor
  if found.kept = 0 ∧ found.dropped = 0 then
    if cursor.rest = [] then cursor.faultNext .endInValue else cursor.faultNext .invalidNumber
  else finish negative found.significand (start - found.kept) found.next

/-- An integer that fits into 64 bits with its sign; a negative zero is a double. -/
def ofInteger (negative : Bool) (significand : Nat) : Value :=
  if negative ∧ (significand = 0 ∨ significand > 1 <<< 63) then
    .double (Double.ofNat negative significand)
  else .integer (signed negative significand)

/-- Reads what follows the digits before a point. -/
def behindInteger (negative : Bool) (found : Digits) : Reading Value :=
  if found.next.rest.head? = some 0x2e then
    fraction negative found.significand found.dropped (behindOne found.next)
  else if startsExponent found.next then
    exponent negative found.significand found.dropped (behindOne found.next)
  else if found.dropped > 0 then
    ofParts negative found.significand found.dropped found.next
  else .ok (ofInteger negative found.significand, found.next)

/-- Reads a number behind its sign. A zero may not be followed by a digit. -/
def unsigned (negative : Bool) (cursor : Cursor) : Reading Value :=
  match cursor.rest with
  | [] => cursor.faultHere .endInValue
  | byte :: rest =>
    match digit? byte with
    | none => Cursor.faultHere ⟨cursor.index + 1, rest⟩ .invalidNumber
    | some 0 =>
      let next : Cursor := ⟨cursor.index + 1, rest⟩
      if (rest.head?.bind digit?).isSome then next.faultNext .invalidNumber
      else behindInteger negative ⟨0, 1, 0, next⟩
    | some _ => behindInteger negative (digits 0 cursor)

/-- An integer stays one exactly if it is no negative zero and fits into 64 bits with its sign. -/
theorem ofInteger_eq_integer_iff {negative : Bool} {significand : Nat} {value : Int} :
    ofInteger negative significand = .integer value ↔
      value = signed negative significand ∧
        (negative = true → significand ≠ 0 ∧ significand ≤ 1 <<< 63) := by
  rw [ofInteger]
  split
  · rename_i outside
    constructor
    · intro impossible
      cases impossible
    · rintro ⟨-, inside⟩
      have bounds := inside outside.1
      omega
  · rename_i inside
    constructor
    · intro equal
      cases equal
      refine ⟨rfl, fun isNegative => ?_⟩
      simp only [isNegative, true_and] at inside
      omega
    · rintro ⟨rfl, -⟩
      rfl

end CashHerald.Json.Number
