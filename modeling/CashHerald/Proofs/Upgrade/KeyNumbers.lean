import CashHerald.Upgrade.Challenge
import Mathlib

/-!
The numbers of keys in the older dialect. The digits of a key are read into 64 bits and divided by the
count of spaces into 32 bits. Main statement: a key has the number that its digits and its spaces
give without any such limit, if that number has 32 bits, and no number otherwise.
-/

namespace CashHerald.Upgrade.Challenge

/-- The number that digits write, the highest first. -/
def value (digits : List Char) : Nat :=
  Nat.ofDigits 10 (digits.reverse.map fun digit => digit.toNat - 48)

theorem value_concat (front : List Char) (last : Char) :
    value (front ++ [last]) = last.toNat - 48 + 10 * value front := by
  simp [value, Nat.ofDigits_cons]

/-- A digit behind a number, if the new number fits into 64 bits. -/
def addDigit? (total : Nat) (digit : Char) : Option Nat :=
  if total * 10 + (digit.toNat - 48) < UInt64.size then some (total * 10 + (digit.toNat - 48))
  else none

/-- A number that does not fit into 64 bits does not fit with more digits either, so that it makes no
difference where the limit is met. -/
theorem foldlM_addDigit? (digits : List Char) :
    digits.foldlM addDigit? 0 = if value digits < UInt64.size then some (value digits) else none := by
  induction digits using List.reverseRecOn with
  | nil => rfl
  | append_singleton front last inductionHypothesis =>
    have more := value_concat front last
    rw [List.foldlM_append, inductionHypothesis]
    by_cases fits : value front < UInt64.size
    · have next : value front * 10 + (last.toNat - 48) = value (front ++ [last]) := by omega
      rw [if_pos fits]
      change addDigit? (value front) last >>= pure = _
      rw [bind_pure, addDigit?, next]
    · have larger : ¬ value (front ++ [last]) < UInt64.size := by omega
      rw [if_neg fits, if_neg larger]
      rfl

/-- The number that the digits of a key write, and nothing else of the key. -/
def written (key : String) : Nat :=
  value (key.toList.filter Char.isDigit)

/-- The count of spaces in a key. -/
def spaces (key : String) : Nat :=
  key.toList.count ' '

theorem digits?_eq (key : String) :
    digits? key.toList = if written key < UInt64.size then some (written key) else none :=
  foldlM_addDigit? (key.toList.filter Char.isDigit)

/-- What is said of a key, by its digits and its spaces. -/
theorem keyNumber_eq (key : String) :
    keyNumber key =
      if spaces key = 0 then .error (.keyWithoutSpaces key)
      else if UInt64.size ≤ written key then .error (.keyOverflow key)
      else if written key / spaces key < UInt32.size then
        .ok (UInt32.ofNat (written key / spaces key))
      else .error (.keyOutOfRange key) := by
  unfold keyNumber
  rw [digits?_eq]
  by_cases fits : written key < UInt64.size
  · rw [if_pos fits, if_neg (Nat.not_le.mpr fits)]
    rfl
  · rw [if_neg fits, if_pos (Nat.not_lt.mp fits)]
    rfl

/-- A number of more than 64 bits is too large for a quotient of 32 bits, unless it is divided by more
than 32 bits hold. -/
theorem size_le_div {number divisor : Nat} (positive : 0 < divisor) (few : divisor < UInt32.size)
    (large : UInt64.size ≤ number) : UInt32.size ≤ number / divisor := by
  rw [Nat.le_div_iff_mul_le positive]
  calc UInt32.size * divisor ≤ UInt32.size * UInt32.size := Nat.mul_le_mul_left _ few.le
    _ = UInt64.size := by decide
    _ ≤ number := large

/-- The 64 bits are enough for every key whose quotient has 32 bits. -/
theorem keyNumber_of_sound {key : String} (few : spaces key < UInt32.size)
    (positive : 0 < spaces key) (small : written key / spaces key < UInt32.size) :
    keyNumber key = .ok (UInt32.ofNat (written key / spaces key)) := by
  have fits : ¬ UInt64.size ≤ written key := fun large =>
    Nat.not_lt.mpr (size_le_div positive few large) small
  rw [keyNumber_eq, if_neg (Nat.ne_of_gt positive), if_neg fits, if_pos small]

theorem exists_refusal {key : String}
    (unsound : ¬(0 < spaces key ∧ written key / spaces key < UInt32.size)) :
    ∃ refusal, keyNumber key = .error refusal := by
  rw [keyNumber_eq]
  by_cases none : spaces key = 0
  · exact ⟨_, if_pos none⟩
  · have out : ¬ written key / spaces key < UInt32.size := fun small =>
      unsound ⟨Nat.pos_of_ne_zero none, small⟩
    rw [if_neg none, if_neg out]
    split <;> exact ⟨_, rfl⟩

/-- A key with fewer than 2 ^ 32 spaces has a number exactly if it has a space and the number that its
digits write, divided by the count of spaces, has 32 bits. It is that quotient then. All other keys
are refused, for overflow only if the quotient is too large. -/
theorem keyNumber_exact (key : String) (few : spaces key < 2 ^ 32) :
    (∀ number, keyNumber key = .ok number ↔
      0 < spaces key ∧ written key / spaces key < 2 ^ 32 ∧
        number.toNat = written key / spaces key) ∧
    ((∃ refusal, keyNumber key = .error refusal) ↔
      ¬(0 < spaces key ∧ written key / spaces key < 2 ^ 32)) ∧
    (keyNumber key = .error (.keyOverflow key) → 2 ^ 32 ≤ written key / spaces key) := by
  by_cases sound : 0 < spaces key ∧ written key / spaces key < UInt32.size
  · obtain ⟨positive, small⟩ := sound
    rw [keyNumber_of_sound few positive small]
    refine ⟨fun number => ⟨?_, ?_⟩, ⟨?_, fun unsound => absurd ⟨positive, small⟩ unsound⟩, ?_⟩
    · rintro ⟨⟩
      exact ⟨positive, small, UInt32.toNat_ofNat_of_lt small⟩
    · rintro ⟨-, -, quotient⟩
      rw [← quotient, UInt32.ofNat_toNat]
    · rintro ⟨refusal, refused⟩
      cases refused
    · intro overflow
      cases overflow
  · obtain ⟨refusal, refused⟩ := exists_refusal sound
    refine ⟨fun number => ⟨fun accepted => ?_, fun exact => absurd ⟨exact.1, exact.2.1⟩ sound⟩,
      ⟨fun _ => sound, fun _ => ⟨refusal, refused⟩⟩, fun overflow => ?_⟩
    · rw [refused] at accepted
      cases accepted
    · have positive : spaces key ≠ 0 := by
        intro none
        rw [keyNumber_eq, if_pos none] at overflow
        cases overflow
      exact Nat.not_lt.mp fun small => sound ⟨Nat.pos_of_ne_zero positive, small⟩

/-- Leading zeros do not count against the limit of 64 bits. -/
theorem keyNumber_exact_leadingZeros :
    spaces "00000000000000000000004294967295 " < 2 ^ 32 ∧
      keyNumber "00000000000000000000004294967295 " = .ok 4294967295 :=
  have few : spaces "00000000000000000000004294967295 " < 2 ^ 32 := by decide
  ⟨few, ((keyNumber_exact "00000000000000000000004294967295 " few).1 4294967295).mpr (by decide)⟩

end CashHerald.Upgrade.Challenge
