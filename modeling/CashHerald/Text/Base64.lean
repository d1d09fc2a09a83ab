import CashHerald.Octets.Basic

/-!
The standard base-64 text of octets, with padding. Main statement: a text holds only characters of
the alphabet and the padding character.
-/

namespace CashHerald.Base64

def alphabet : List Char :=
  "ABCDEFGHIJKLMNOPQRSTUVWXYZabcdefghijklmnopqrstuvwxyz0123456789+/".toList

/-- The character of a number below sixty-four. -/
def symbol (value : Nat) : Char :=
  alphabet.getD value '='

/-- Writes four characters for every three octets and pads the last group. -/
def encodeList : Octets → List Char
  | [] => []
  | [first] =>
    [symbol (first.toNat / 4), symbol (first.toNat % 4 * 16), '=', '=']
  | [first, second] =>
    [symbol (first.toNat / 4), symbol (first.toNat % 4 * 16 + second.toNat / 16),
      symbol (second.toNat % 16 * 4), '=']
  | first :: second :: third :: rest =>
    symbol (first.toNat / 4) :: symbol (first.toNat % 4 * 16 + second.toNat / 16) ::
      symbol (second.toNat % 16 * 4 + third.toNat / 64) :: symbol (third.toNat % 64) ::
      encodeList rest

def encode (bytes : Octets) : String :=
  String.ofList (encodeList bytes)

theorem symbol_mem (value : Nat) : symbol value ∈ '=' :: alphabet := by
  rw [symbol, List.getD_eq_getElem?_getD]
  cases found : alphabet[value]? with
  | none => simp
  | some character => simpa using Or.inr (List.mem_of_getElem? found)

/-- Every character of a text is in the alphabet or pads. -/
theorem mem_of_mem_encodeList {bytes : Octets} {character : Char}
    (member : character ∈ encodeList bytes) : character ∈ '=' :: alphabet := by
  fun_induction encodeList bytes with
  | case1 => cases member
  | case2 first =>
    simp only [List.mem_cons, List.not_mem_nil, or_false] at member
    rcases member with rfl | rfl | rfl | rfl
    · exact symbol_mem _
    · exact symbol_mem _
    · exact List.mem_cons_self
    · exact List.mem_cons_self
  | case3 first second =>
    simp only [List.mem_cons, List.not_mem_nil, or_false] at member
    rcases member with rfl | rfl | rfl | rfl
    · exact symbol_mem _
    · exact symbol_mem _
    · exact symbol_mem _
    · exact List.mem_cons_self
  | case4 first second third rest inductionHypothesis =>
    simp only [List.mem_cons] at member
    rcases member with rfl | rfl | rfl | rfl | inRest
    · exact symbol_mem _
    · exact symbol_mem _
    · exact symbol_mem _
    · exact symbol_mem _
    · exact inductionHypothesis inRest

end CashHerald.Base64
