import CashHerald.Text.Utf8
import Mathlib.Data.List.Infix

/-!
The octets of a text, character by character. Main statements: no character's octets start with
those of another one, and a pattern that starts with an ASCII character stands in a text wherever
its octets stand in those of the text.
-/

namespace CashHerald.Utf8

/-- The octets of a text are those of its characters. -/
theorem encode_eq_flatMap (text : String) :
    encode text = text.toList.flatMap String.utf8EncodeChar := by
  rw [encode, ← String.utf8Encode_toList, List.utf8Encode, List.data_toByteArray]

/-- No character's octets start with those of another one. -/
theorem utf8EncodeChar_append_inj {first second : Char} {front back : Octets}
    (same : String.utf8EncodeChar first ++ front = String.utf8EncodeChar second ++ back) :
    first = second ∧ front = back := by
  have read (character : Char) (rest : Octets) :
      (String.utf8EncodeChar character ++ rest).toByteArray.utf8DecodeChar? 0 = some character := by
    rw [List.toByteArray_append]
    exact ByteArray.utf8DecodeChar?_utf8EncodeChar_append
  have equal := read first front
  rw [same, read second back] at equal
  cases equal
  exact ⟨rfl, List.append_cancel_left same⟩

theorem length_le_length_flatMap (characters : List Char) :
    characters.length ≤ (characters.flatMap String.utf8EncodeChar).length := by
  induction characters with
  | nil => exact Nat.le_refl 0
  | cons character characters inductionHypothesis =>
    have positive := character.utf8Size_pos
    simp only [List.flatMap_cons, List.length_append, List.length_cons,
      String.length_utf8EncodeChar]
    omega

/-- As many characters have the same octets in front of whatever follows only if they are the
same. -/
theorem flatMap_append_inj {first second : List Char} {front back : Octets}
    (length : first.length = second.length)
    (same : first.flatMap String.utf8EncodeChar ++ front =
      second.flatMap String.utf8EncodeChar ++ back) : first = second ∧ front = back := by
  induction first generalizing second with
  | nil =>
    obtain rfl := List.length_eq_zero_iff.mp length.symm
    exact ⟨rfl, same⟩
  | cons character first inductionHypothesis =>
    obtain ⟨other, second, rfl⟩ := List.exists_cons_of_length_eq_add_one length.symm
    simp only [List.flatMap_cons, List.append_assoc] at same
    obtain ⟨rfl, later⟩ := utf8EncodeChar_append_inj same
    obtain ⟨rfl, rest⟩ := inductionHypothesis (Nat.succ.inj length) later
    exact ⟨rfl, rest⟩

/-- An octet below 128 is all there is of its character. -/
theorem utf8EncodeChar_eq_singleton {character : Char} {byte : UInt8}
    (mem : byte ∈ String.utf8EncodeChar character) (low : byte.toNat < 128) :
    String.utf8EncodeChar character = [byte] := by
  rw [String.utf8EncodeChar] at mem ⊢
  split at mem
  · rename_i plain
    rw [List.mem_singleton.mp mem, if_pos plain]
  · -- All octets of the longer forms have their highest bit.
    have high : 128 ≤ byte.toNat := by
      split at mem
      · simp only [List.mem_cons, List.not_mem_nil, or_false] at mem
        rcases mem with rfl | rfl <;> rw [UInt8.toNat_ofNat'] <;> omega
      · split at mem
        · simp only [List.mem_cons, List.not_mem_nil, or_false] at mem
          rcases mem with rfl | rfl | rfl <;> rw [UInt8.toNat_ofNat'] <;> omega
        · simp only [List.mem_cons, List.not_mem_nil, or_false] at mem
          rcases mem with rfl | rfl | rfl | rfl <;> rw [UInt8.toNat_ofNat'] <;> omega
    omega

/-- An octet below 128 cuts a text between two characters. -/
theorem exists_cut {characters : List Char} {earlier later : Octets} {byte : UInt8}
    (low : byte.toNat < 128)
    (same : characters.flatMap String.utf8EncodeChar = earlier ++ byte :: later) :
    ∃ front character back, characters = front ++ character :: back ∧
      String.utf8EncodeChar character = [byte] ∧
        later = back.flatMap String.utf8EncodeChar := by
  induction characters generalizing earlier with
  | nil => cases (List.append_eq_nil_iff.mp same.symm).2
  | cons first characters inductionHypothesis =>
    rw [List.flatMap_cons, List.append_eq_append_iff] at same
    rcases same with ⟨middle, rfl, rest⟩ | ⟨middle, own, rest⟩
    · obtain ⟨front, character, back, rfl, single, behind⟩ := inductionHypothesis rest
      exact ⟨first :: front, character, back, rfl, single, behind⟩
    · cases middle with
      | nil =>
        obtain ⟨front, character, back, rfl, single, behind⟩ :=
          @inductionHypothesis [] rest.symm
        exact ⟨first :: front, character, back, rfl, single, behind⟩
      | cons octet middle =>
        obtain ⟨rfl, behind⟩ := List.cons.inj rest
        have mem : byte ∈ String.utf8EncodeChar first := own ▸ List.mem_append_right _ List.mem_cons_self
        have single := utf8EncodeChar_eq_singleton mem low
        have length := congrArg List.length (single.symm.trans own)
        rw [List.length_singleton, List.length_append, List.length_cons] at length
        obtain rfl : middle = [] := List.length_eq_zero_iff.mp (by omega)
        exact ⟨[], first, characters, rfl, single, behind⟩

theorem exists_append {pattern characters : List Char} {later : Octets}
    (same : characters.flatMap String.utf8EncodeChar =
      pattern.flatMap String.utf8EncodeChar ++ later) : ∃ back, characters = pattern ++ back := by
  induction pattern generalizing characters with
  | nil => exact ⟨characters, rfl⟩
  | cons first pattern inductionHypothesis =>
    rw [List.flatMap_cons, List.append_assoc] at same
    cases characters with
    | nil => exact absurd (List.append_eq_nil_iff.mp same.symm).1 String.utf8EncodeChar_ne_nil
    | cons character characters =>
      obtain ⟨rfl, rest⟩ := utf8EncodeChar_append_inj same
      obtain ⟨back, rfl⟩ := inductionHypothesis rest
      exact ⟨back, rfl⟩

/-- A pattern that starts with an ASCII character stands in a text wherever its octets stand in
those of the text. -/
theorem infix_of_flatMap {first : Char} {pattern characters : List Char} {byte : UInt8}
    (single : String.utf8EncodeChar first = [byte]) (low : byte.toNat < 128)
    (inside : (first :: pattern).flatMap String.utf8EncodeChar <:+:
      characters.flatMap String.utf8EncodeChar) : first :: pattern <:+: characters := by
  obtain ⟨earlier, later, same⟩ := inside
  rw [List.flatMap_cons, single, List.append_assoc, List.singleton_append, List.cons_append] at same
  obtain ⟨front, character, back, rfl, alike, rest⟩ := exists_cut low same.symm
  obtain ⟨rfl, -⟩ := utf8EncodeChar_append_inj (congrArg (· ++ []) (single.trans alike.symm))
  obtain ⟨behind, rfl⟩ := exists_append rest.symm
  exact ⟨front, behind, by simp⟩

end CashHerald.Utf8
