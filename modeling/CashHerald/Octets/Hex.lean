import CashHerald.Octets.Basic

/-!
Hexadecimal text of octet strings. Main statement: reading the written text gives the octets back.
-/

namespace CashHerald.Hex

/-- The digit of a number below sixteen, in lower case. -/
def digit (value : Nat) : Char :=
  if value < 10 then Char.ofNat (48 + value) else Char.ofNat (87 + value)

/-- The number of a hexadecimal digit of either case. -/
def value? (character : Char) : Option Nat :=
  if '0' ≤ character ∧ character ≤ '9' then some (character.toNat - 48)
  else if 'a' ≤ character ∧ character ≤ 'f' then some (character.toNat - 87)
  else if 'A' ≤ character ∧ character ≤ 'F' then some (character.toNat - 55)
  else none

/-- The two digits of one octet, the high half first. -/
def pair (byte : UInt8) : List Char :=
  [digit (byte.toNat / 16), digit (byte.toNat % 16)]

/-- The lower-case text of an octet string, two digits for each octet. -/
def encode (bytes : Octets) : String :=
  String.ofList (bytes.flatMap pair)

/-- The octets of a text behind the octets read so far, the latest first. -/
def decodeBehind? (earlier : Octets) : List Char → Option Octets
  | [] => some earlier.reverse
  | [_] => none
  | high :: low :: rest =>
    match value? high, value? low with
    | some highValue, some lowValue =>
      decodeBehind? (UInt8.ofNat (16 * highValue + lowValue) :: earlier) rest
    | _, _ => none

/-- Reads two digits for each octet and refuses every other text. -/
def decode? (text : List Char) : Option Octets :=
  decodeBehind? [] text

/-- A written digit reads back as its number. -/
theorem value?_digit {value : Nat} (small : value < 16) : value? (digit value) = some value := by
  have every : ∀ index : Fin 16, value? (digit index) = some index.val := by decide
  exact every ⟨value, small⟩

theorem decodeBehind?_pairs (earlier bytes : Octets) :
    decodeBehind? earlier (bytes.flatMap pair) = some (earlier.reverse ++ bytes) := by
  induction bytes generalizing earlier with
  | nil => simp [decodeBehind?]
  | cons byte rest inductionHypothesis =>
    have bound := byte.toNat_lt
    have whole : 16 * (byte.toNat / 16) + byte.toNat % 16 = byte.toNat := by omega
    simp only [List.flatMap_cons, pair, List.cons_append, List.nil_append, decodeBehind?,
      value?_digit (show byte.toNat / 16 < 16 by omega),
      value?_digit (show byte.toNat % 16 < 16 by omega), whole, UInt8.ofNat_toNat,
      inductionHypothesis]
    simp

/-- Reading the written text of an octet string gives the octets back. -/
theorem decode?_encode (bytes : Octets) : decode? (encode bytes).toList = some bytes := by
  rw [encode, String.toList_ofList, decode?, decodeBehind?_pairs]
  rfl

end CashHerald.Hex
