import CashHerald.Json.Double

/-!
The text of a double: the fewest digits that identify it, and of those the nearest to it.
-/

namespace CashHerald.Json

/-- A number written by digits with an exponent of ten. -/
structure Decimal where
  digits : Nat
  exponent : Int
  deriving DecidableEq, Repr

/-- Compares a decimal with a number times a power of two. -/
def Decimal.compareWith (decimal : Decimal) (number : Nat) (exponent : Int) : Ordering :=
  compare (decimal.digits * 10 ^ decimal.exponent.toNat * 2 ^ (-exponent).toNat)
    (number * 2 ^ exponent.toNat * 10 ^ (-decimal.exponent).toNat)

namespace Double

/-- The decimal is among the numbers that round to the double: it lies between the middles to both
neighbours, which belong to the double when its significand is even. Below a power of two the
neighbour is nearer. -/
def isNearestTo (value : Double) (decimal : Decimal) : Bool :=
  let atPower := value.significand = 1 <<< 52 ∧ lowestExponent < value.exponent
  let low := 4 * value.significand - (if atPower then 1 else 2)
  let high := 4 * value.significand + 2
  let isEven := value.significand % 2 = 0
  let fromLow := decimal.compareWith low (value.exponent - 2)
  let fromHigh := decimal.compareWith high (value.exponent - 2)
  (fromLow = .gt ∨ (isEven ∧ fromLow = .eq)) ∧ (fromHigh = .lt ∨ (isEven ∧ fromHigh = .eq))

/-- The least power of ten above a double that is not zero. -/
def powerAbove (value : Double) : Int :=
  let estimate := ((value.significand.log2 : Int) + value.exponent) * 30103 / 100000
  let powers := (List.range 4).map fun (index : Nat) => estimate + index
  (powers.find? fun power =>
    Decimal.compareWith ⟨1, power⟩ value.significand value.exponent = .gt).getD estimate

/-- The multiple of a power of ten at or below a double. -/
def below (value : Double) (power : Int) : Decimal :=
  ⟨value.significand * 2 ^ value.exponent.toNat * 10 ^ (-power).toNat /
    (2 ^ (-value.exponent).toNat * 10 ^ power.toNat), power⟩

/-- Of the multiple of a power of ten below a double and the one above, the lower is to be taken,
as the nearer one or, in the middle, the even one. -/
def prefersLower (value : Double) (lower : Decimal) : Bool :=
  match Decimal.compareWith ⟨2 * lower.digits + 1, lower.exponent⟩ value.significand
    (value.exponent + 1) with
  | .gt => true
  | .eq => lower.digits % 2 = 0
  | .lt => false

/-- The multiple of a power of ten that rounds to a double, if one of its two neighbours does. -/
def multiple? (value : Double) (power : Int) : Option Decimal :=
  let lower := value.below power
  let upper : Decimal := ⟨lower.digits + 1, power⟩
  let ordered := if value.prefersLower lower then [lower, upper] else [upper, lower]
  ordered.find? value.isNearestTo

/-- The decimal with the fewest digits that rounds to a double; seventeen always do. -/
def shortest? (value : Double) : Option Decimal :=
  (List.range 17).findSome? fun (index : Nat) => value.multiple? (value.powerAbove - (index + 1))

/-- The digits of a number without the zeros at their end. -/
def significant (digits : List Char) : List Char :=
  (digits.reverse.dropWhile (· = '0')).reverse

/-- Digits with a point, or with a signed exponent of ten. The first digit stands for a power of
ten, and there is a point if that is at least `10 ^ -5` and below `10 ^ 16`. -/
def arrange (digits : List Char) (power : Int) : List Char :=
  if power < -5 ∨ 15 < power then
    digits.take 1 ++ (if digits.length > 1 then '.' :: digits.drop 1 else []) ++
      'e' :: (if power < 0 then '-' else '+') :: (toString power.natAbs).toList
  else if power < 0 then
    '0' :: '.' :: (List.replicate (power.natAbs - 1) '0' ++ digits)
  else
    let whole := power.natAbs + 1
    if digits.length ≤ whole then
      digits ++ List.replicate (whole - digits.length) '0' ++ ['.', '0']
    else digits.take whole ++ '.' :: digits.drop whole

/-- The text of a double's magnitude. -/
def magnitudeText (value : Double) : List Char :=
  match value.shortest? with
  | none => ['0', '.', '0']
  | some decimal =>
    let digits := (toString decimal.digits).toList
    arrange (significant digits) (decimal.exponent + digits.length - 1)

/-- The text of a double. -/
def text (value : Double) : String :=
  let magnitude := if value.significand = 0 then ['0', '.', '0'] else value.magnitudeText
  String.ofList (if value.negative then '-' :: magnitude else magnitude)

end Double

end CashHerald.Json
