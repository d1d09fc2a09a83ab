import CashHerald.Text.Blank
import CashHerald.Octets.Basic

/-!
The policy probe: a tag in any case, any white space, and the end of the tag. The document that
answers it lets every site connect. Main statement: octets behind a probe do not matter to it.
-/

namespace CashHerald.Upgrade.PolicyProbe

/-- The start of a probe. -/
def tag : List Char :=
  "<policy-file-request".toList

/-- The document that answers a probe, ended by a zero. -/
def response : String :=
  "<?xml version=\"1.0\"?>\n" ++
  "<cross-domain-policy>\n" ++
  "   <allow-access-from domain=\"*\" to-ports=\"*\"/>\n" ++
  "   <site-control permitted-cross-domain-policies=\"all\"/>\n" ++
  "</cross-domain-policy>\n" ++
  "\u0000"

/-- An octet with an ASCII letter in lower case. -/
def lowerOctet (byte : UInt8) : UInt8 :=
  if 65 ≤ byte ∧ byte ≤ 90 then byte + 32 else byte

/-- The octets behind one character of the tag in any case. The long s, two octets in UTF-8, is a
case of the letter s. -/
def dropLetter? (letter : Char) : Octets → Option Octets
  | [] => none
  | byte :: rest =>
    if lowerOctet byte = letter.toUInt8 then some rest
    else
      match byte, rest with
      | 0xc5, 0xbf :: later => if letter = 's' then some later else none
      | _, _ => none

/-- The octets behind the characters of a tag in any case. -/
def dropTag? : List Char → Octets → Option Octets
  | [], bytes => some bytes
  | letter :: letters, bytes =>
    match dropLetter? letter bytes with
    | none => none
    | some rest => dropTag? letters rest

/-- The octets behind one blank. -/
def dropBlank? (bytes : Octets) : Option Octets :=
  Blank.characters.findSome? fun blank => (String.utf8EncodeChar blank).isPrefixOf? bytes

theorem eq_append_of_isPrefixOf? {front bytes rest : Octets}
    (found : front.isPrefixOf? bytes = some rest) : bytes = front ++ rest := by
  induction front generalizing bytes with
  | nil =>
    cases bytes <;> (cases found; rfl)
  | cons byte front inductionHypothesis =>
    cases bytes with
    | nil => cases found
    | cons head tail =>
      change (if byte == head then front.isPrefixOf? tail else none) = some rest at found
      split at found
      · rename_i same
        rw [inductionHypothesis found, eq_of_beq same]
        rfl
      · cases found

/-- A blank has at least one octet. -/
theorem length_of_dropBlank? {bytes rest : Octets} (found : dropBlank? bytes = some rest) :
    rest.length < bytes.length := by
  obtain ⟨blank, -, starts⟩ := List.exists_of_findSome?_eq_some found
  rw [eq_append_of_isPrefixOf? starts, List.length_append, String.length_utf8EncodeChar]
  have positive := blank.utf8Size_pos
  omega

/-- White space and the end of the tag come next. -/
def closes : Octets → Bool
  | 0x2f :: 0x3e :: _ => true
  | bytes =>
    match _found : dropBlank? bytes with
    | none => false
    | some rest => closes rest
termination_by bytes => bytes.length
decreasing_by exact length_of_dropBlank? _found

/-- The octets start with a whole probe. -/
def isProbe (bytes : Octets) : Bool :=
  match dropTag? tag bytes with
  | none => false
  | some rest => closes rest

/-- More octets may make a probe of the octets, as far as their start and number tell. -/
def mayBecomeProbe (bytes : Octets) : Bool :=
  bytes.length < tag.length + 2 &&
    (bytes.take tag.length).map lowerOctet == (tag.take bytes.length).map Char.toUInt8

end CashHerald.Upgrade.PolicyProbe
