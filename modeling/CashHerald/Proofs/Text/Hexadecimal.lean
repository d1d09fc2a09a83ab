import CashHerald.Octets.Hex
import CashHerald.Text.Letters
import Mathlib.Data.List.Basic

/-!
What hexadecimal texts write. Main statements: a text in any case writes some octets exactly if it
is their text when its letters are lowered, and every even number of digits writes some.
-/

namespace CashHerald.Hex

/-- A hexadecimal digit of either case. -/
def IsDigit (character : Char) : Prop :=
  '0' ≤ character ∧ character ≤ '9' ∨ 'a' ≤ character ∧ character ≤ 'f' ∨
    'A' ≤ character ∧ character ≤ 'F'

variable {character : Char} {text : List Char} {octets : Octets}

theorem value?_eq_none_iff : value? character = none ↔ ¬ IsDigit character := by
  unfold value? IsDigit
  split_ifs <;> simp_all

theorem exists_value? (digit : IsDigit character) : ∃ value, value? character = some value :=
  Option.ne_none_iff_exists'.mp fun none => value?_eq_none_iff.mp none digit

theorem toNat_lt_of_isDigit (digit : IsDigit character) : character.toNat < 128 := by
  have below {bound : Char} (le : character ≤ bound) : character.toNat ≤ bound.toNat :=
    UInt32.le_iff_toNat_le.mp le
  rcases digit with ⟨-, le⟩ | ⟨-, le⟩ | ⟨-, le⟩ <;> exact Nat.lt_of_le_of_lt (below le) (by decide)

/-- A digit in lower case is the one that is written for its value. -/
theorem toLower_eq_digit {value : Nat} (known : value? character = some value) :
    value < 16 ∧ character.toLower = digit value := by
  have every : ∀ code : Fin 128, ∀ value ∈ value? (Char.ofNat code),
      value < 16 ∧ (Char.ofNat code).toLower = digit value := by decide
  have small : character.toNat < 128 := by
    apply toNat_lt_of_isDigit
    by_contra other
    rw [value?_eq_none_iff.mpr other] at known
    cases known
  have named := every ⟨character.toNat, small⟩ value
  simp only [Char.ofNat_toNat] at named
  exact named known

/-- Digits have the same value in lower case. -/
theorem value?_toLower (character : Char) : value? character.toLower = value? character := by
  by_cases upper : 'A' ≤ character ∧ character ≤ 'Z'
  · have every : ∀ code : Fin 128,
        value? (Char.ofNat code).toLower = value? (Char.ofNat code) := by decide
    have small : character.toNat < 128 :=
      Nat.lt_of_le_of_lt (UInt32.le_iff_toNat_le.mp upper.2) (by decide)
    simpa only [Char.ofNat_toNat] using every ⟨character.toNat, small⟩
  · have kept : character.toLower = character := dif_neg upper
    rw [kept]

theorem length_encode (octets : Octets) : (encode octets).toList.length = 2 * octets.length := by
  simp [encode, pair, List.length_flatMap, Nat.mul_comm]

/-- The text that is written for octets has no upper-case letters. -/
theorem isUpper_of_mem_encode (mem : character ∈ (encode octets).toList) :
    character.isUpper = false := by
  have every : ∀ value : Fin 16, (digit value).isUpper = false := by decide
  rw [encode, String.toList_ofList] at mem
  obtain ⟨byte, -, mem⟩ := List.mem_flatMap.mp mem
  have bound := byte.toNat_lt
  rcases List.mem_pair.mp mem with rfl | rfl
  · exact every ⟨byte.toNat / 16, by omega⟩
  · exact every ⟨byte.toNat % 16, by omega⟩

/-- Two digits write one octet. -/
theorem pair_ofNat {high low : Nat} (highSmall : high < 16) (lowSmall : low < 16) :
    pair (UInt8.ofNat (16 * high + low)) = [digit high, digit low] := by
  have whole : (UInt8.ofNat (16 * high + low)).toNat = 16 * high + low := by
    rw [UInt8.toNat_ofNat']
    omega
  have front : (16 * high + low) / 16 = high := by omega
  have back : (16 * high + low) % 16 = low := by omega
  rw [pair, whole, front, back]

theorem lower_eq_of_decodeBehind? {earlier : Octets}
    (read : decodeBehind? earlier text = some octets) :
    ∃ later, octets = earlier.reverse ++ later ∧ Letters.lower text = later.flatMap pair := by
  fun_induction decodeBehind? earlier text with
  | case1 earlier =>
    cases read
    exact ⟨[], by simp, rfl⟩
  | case2 => cases read
  | case3 earlier high low rest highValue lowValue lowKnown highKnown inductionHypothesis =>
    obtain ⟨later, rfl, lowered⟩ := inductionHypothesis read
    obtain ⟨highSmall, highLower⟩ := toLower_eq_digit highKnown
    obtain ⟨lowSmall, lowLower⟩ := toLower_eq_digit lowKnown
    refine ⟨UInt8.ofNat (16 * highValue + lowValue) :: later, by simp, ?_⟩
    rw [List.flatMap_cons, pair_ofNat highSmall lowSmall, ← lowered, ← highLower, ← lowLower]
    rfl
  | case4 => cases read

/-- The case of letters does not matter to what a text writes. -/
theorem decodeBehind?_lower (earlier : Octets) (text : List Char) :
    decodeBehind? earlier (Letters.lower text) = decodeBehind? earlier text := by
  induction earlier, text using decodeBehind?.induct with
  | case1 => rfl
  | case2 => rfl
  | case3 earlier high low rest highValue lowValue lowKnown highKnown inductionHypothesis =>
    simpa [Letters.lower, decodeBehind?, value?_toLower, highKnown, lowKnown]
      using inductionHypothesis
  | case4 earlier high low rest unknown =>
    simp only [Letters.lower, List.map_cons, decodeBehind?, value?_toLower]

/-- A text writes some octets exactly if it is their text when its letters are lowered. -/
theorem decode?_eq_some_iff :
    decode? text = some octets ↔ Letters.lower text = (encode octets).toList := by
  rw [encode, String.toList_ofList]
  constructor
  · intro read
    obtain ⟨later, rfl, lowered⟩ := lower_eq_of_decodeBehind? read
    exact lowered
  · intro lowered
    rw [decode?, ← decodeBehind?_lower, lowered, decodeBehind?_pairs]
    rfl

/-- A text that writes octets has two digits for each, and nothing else. -/
theorem length_of_decode? (read : decode? text = some octets) :
    text.length = 2 * octets.length := by
  rw [← length_encode, ← decode?_eq_some_iff.mp read, Letters.length_lower]

theorem isDigit_of_decode? (read : decode? text = some octets) (mem : character ∈ text) :
    IsDigit character := by
  have shown : character.toLower ∈ (encode octets).toList := by
    rw [← decode?_eq_some_iff.mp read]
    exact List.mem_map_of_mem mem
  rw [encode, String.toList_ofList] at shown
  obtain ⟨byte, -, shown⟩ := List.mem_flatMap.mp shown
  by_contra other
  have unknown := (value?_toLower character).trans (value?_eq_none_iff.mpr other)
  have bound := byte.toNat_lt
  rcases List.mem_pair.mp shown with same | same <;>
    · rw [same, value?_digit (by omega)] at unknown
      cases unknown

/-- Every even number of digits writes some octets. -/
theorem exists_decode? (digits : ∀ character ∈ text, IsDigit character)
    (even : text.length % 2 = 0) : ∃ octets, decode? text = some octets := by
  unfold decode?
  generalize [] = earlier
  induction earlier, text using decodeBehind?.induct with
  | case1 earlier => exact ⟨_, rfl⟩
  | case2 => cases even
  | case3 earlier high low rest highValue lowValue lowKnown highKnown inductionHypothesis =>
    have behind : ∀ character ∈ rest, IsDigit character := fun character mem =>
      digits character (List.mem_cons_of_mem _ (List.mem_cons_of_mem _ mem))
    obtain ⟨octets, read⟩ :=
      inductionHypothesis behind ((Nat.add_mod_right rest.length 2).symm.trans even)
    exact ⟨octets, by simpa only [decodeBehind?, highKnown, lowKnown] using read⟩
  | case4 earlier high low rest unknown =>
    obtain ⟨highValue, highKnown⟩ := exists_value? (digits high List.mem_cons_self)
    obtain ⟨lowValue, lowKnown⟩ :=
      exists_value? (digits low (List.mem_cons_of_mem _ List.mem_cons_self))
    exact absurd lowKnown (unknown highValue lowValue highKnown)

/-- The one text that writes some octets without upper-case letters. -/
structure Shows (octets : Octets) (shown : String) : Prop where
  read : decode? shown.toList = some octets
  lower : ∀ character ∈ shown.toList, character.isUpper = false

theorem shows_encode (octets : Octets) : Shows octets (encode octets) where
  read := decode?_encode octets
  lower := fun _ => isUpper_of_mem_encode

end CashHerald.Hex
