import CashHerald.Octets.Basic

/-!
Doubles: numbers of at most 53 significant bits with an exponent of two. Every operation is exact
and then rounded to the nearest double; of two, to the one with an even significand.
-/

namespace CashHerald.Json

/-- A double has a sign, a significand below `2 ^ 53`, and an exponent of two. -/
structure Double where
  negative : Bool
  significand : Nat
  exponent : Int
  deriving DecidableEq, Repr

namespace Double

/-- The exponent of the smallest doubles. -/
def lowestExponent : Int := -1074

/-- The exponent of the largest doubles. -/
def highestExponent : Int := 971

/-- The nearest number to a quotient; of two, the even one. -/
def roundQuotient (numerator denominator : Nat) : Nat :=
  let quotient := numerator / denominator
  let remainder := numerator % denominator
  if 2 * remainder > denominator ∨ (2 * remainder = denominator ∧ quotient % 2 = 1) then
    quotient + 1
  else quotient

/-- The quotient of two numbers in units of a power of two, as two numbers again. -/
def inUnits (numerator denominator : Nat) (exponent : Int) : Nat × Nat :=
  (numerator * 2 ^ (-exponent).toNat, denominator * 2 ^ exponent.toNat)

/-- The exponent that leaves 53 bits of a quotient, or the lowest one. -/
def exponentOf (numerator denominator : Nat) : Int :=
  let exponent : Int := (numerator.log2 : Int) - denominator.log2 - 53
  let (top, bottom) := inUnits numerator denominator exponent
  max lowestExponent (if top / bottom < 1 <<< 53 then exponent else exponent + 1)

def zero (negative : Bool) : Double :=
  ⟨negative, 0, lowestExponent⟩

/-- The double with a significand of at most `2 ^ 53`. -/
def ofSignificand (negative : Bool) (significand : Nat) (exponent : Int) : Double :=
  if significand = 1 <<< 53 then ⟨negative, 1 <<< 52, exponent + 1⟩
  else ⟨negative, significand, exponent⟩

/-- The double nearest to a quotient, with a sign. -/
def ofQuotient (negative : Bool) (numerator denominator : Nat) : Double :=
  if numerator = 0 then zero negative
  else
    let exponent := exponentOf numerator denominator
    let (top, bottom) := inUnits numerator denominator exponent
    ofSignificand negative (roundQuotient top bottom) exponent

/-- The double nearest to a number, with a sign. -/
def ofNat (negative : Bool) (number : Nat) : Double :=
  ofQuotient negative number 1

/-- The double nearest to a power of ten. -/
def powerOfTen (power : Nat) : Double :=
  ofNat false (10 ^ power)

/-- The number is too large for a double. -/
def isInfinite (value : Double) : Bool :=
  highestExponent < value.exponent

/-- A double times a positive one. -/
def times (value factor : Double) : Double :=
  let exponent := value.exponent + factor.exponent
  ofQuotient value.negative (value.significand * factor.significand * 2 ^ exponent.toNat)
    (2 ^ (-exponent).toNat)

/-- A double divided by a positive one. -/
def dividedBy (value divisor : Double) : Double :=
  let exponent := value.exponent - divisor.exponent
  ofQuotient value.negative (value.significand * 2 ^ exponent.toNat)
    (divisor.significand * 2 ^ (-exponent).toNat)

/-- A double divided by a power of ten, by at most `10 ^ 308` at a time. -/
def lowered (value : Double) (power : Nat) : Double :=
  if power ≤ 308 then value.dividedBy (powerOfTen power)
  else if value.significand = 0 then value
  else lowered (value.dividedBy (powerOfTen 308)) (power - 308)
termination_by power

/-- A double times a power of ten, if it is not infinite. -/
def raised? (value : Double) (power : Nat) : Option Double :=
  if value.significand = 0 then some value
  else if power > 308 then none
  else
    let product := value.times (powerOfTen power)
    if product.isInfinite then none else some product

/-- A significand times a power of ten with a sign, if it is not infinite. The significand is
rounded first. -/
def ofDecimal? (negative : Bool) (significand : Nat) (exponent : Int) : Option Double :=
  match exponent with
  | .ofNat power => (ofNat negative significand).raised? power
  | .negSucc power => some ((ofNat negative significand).lowered (power + 1))

end Double

end CashHerald.Json
