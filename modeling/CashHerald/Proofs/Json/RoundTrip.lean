import CashHerald.Json.Parser
import CashHerald.Proofs.Text.Encoding

/-!
Reading back what has been written in JSON. A reader takes the octets of a text in front of whatever
stands behind them; only digits have to be told from what follows. Main statement: the text of a
value that is nested within the depth that the parser allows, without doubles and with integers of
64 bits, is read as that value.
-/

namespace CashHerald.Json

/-- A reader takes some octets for a result and leaves what stands behind them, at any place. -/
def Takes {Result : Type} (reader : Cursor → Reading Result) (octets : Octets) (result : Result)
    (rest : Octets) : Prop :=
  ∀ index, ∃ later, reader ⟨index, octets ++ rest⟩ = .ok (result, ⟨later, rest⟩)

/-- The octets of some characters. -/
abbrev octetsOf (characters : List Char) : Octets :=
  characters.flatMap String.utf8EncodeChar

namespace Quoted

/-- An octet that stands for itself inside a string. -/
def IsPlain (byte : UInt8) : Prop :=
  byte ≠ 0x22 ∧ byte ≠ 0x5c ∧ ¬ byte < 0x20

theorem readBehind_plain {byte : UInt8} (plain : IsPlain byte) (earlier : Octets) (index : Nat)
    (rest : Octets) :
    readBehind earlier index (byte :: rest) = readBehind (byte :: earlier) (index + 1) rest := by
  rw [readBehind, if_neg plain.1, if_neg plain.2.1, if_neg plain.2.2]

theorem exists_readBehind_plain {octets : Octets} (plain : ∀ byte ∈ octets, IsPlain byte)
    (earlier : Octets) (index : Nat) (rest : Octets) :
    ∃ later, readBehind earlier index (octets ++ rest) =
      readBehind (octets.reverse ++ earlier) later rest := by
  induction octets generalizing earlier index with
  | nil => exact ⟨index, rfl⟩
  | cons byte octets inductionHypothesis =>
    obtain ⟨later, read⟩ := inductionHypothesis
      (fun other mem => plain other (List.mem_cons_of_mem _ mem)) (byte :: earlier) (index + 1)
    refine ⟨later, ?_⟩
    rw [List.cons_append, readBehind_plain (plain byte List.mem_cons_self), read,
      List.reverse_cons, List.append_assoc]
    rfl

/-- The octets of a character that is not escaped stand for themselves. -/
theorem isPlain_of_mem {character : Char} (visible : 32 ≤ character.toNat)
    (noQuote : character ≠ '"') (noBackslash : character ≠ '\\') {byte : UInt8}
    (mem : byte ∈ String.utf8EncodeChar character) : IsPlain byte := by
  by_cases low : byte.toNat < 128
  · have single := Utf8.utf8EncodeChar_eq_singleton mem low
    have other {quote : Char} (differs : character ≠ quote) :
        String.utf8EncodeChar quote ≠ [byte] := by
      intro same
      exact differs (Utf8.utf8EncodeChar_append_inj
        (congrArg (· ++ []) (single.trans same.symm))).1
    refine ⟨?_, ?_, ?_⟩
    · rintro rfl
      exact other noQuote rfl
    · rintro rfl
      exact other noBackslash rfl
    · intro control
      have every : ∀ value : Fin 32, (Char.ofNat value).toNat = value ∧
          String.utf8EncodeChar (Char.ofNat value) = [value.val.toUInt8] := by decide
      have small : byte.toNat < 32 := control
      obtain ⟨number, named⟩ := every ⟨byte.toNat, small⟩
      rw [Nat.toUInt8_eq, UInt8.ofNat_toNat] at named
      refine other ?_ named
      rintro rfl
      rw [number] at visible
      exact absurd small (Nat.not_lt.mpr visible)
  · refine ⟨?_, ?_, fun control => ?_⟩
    · rintro rfl
      exact low (by decide)
    · rintro rfl
      exact low (by decide)
    · exact low (Nat.lt_trans control (by decide))

theorem readBehind_short {letter octet : UInt8} (known : short? letter = some octet)
    (earlier : Octets) (index : Nat) (rest : Octets) :
    readBehind earlier index (0x5c :: letter :: rest) =
      readBehind (octet :: earlier) (index + 2) rest := by
  have named : letter ≠ 0x75 := by
    rintro rfl
    cases known
  rw [readBehind, if_neg (by decide), if_pos rfl]
  simp only [escape, if_neg named, known, List.drop_succ_cons, List.drop_zero]
  rfl

theorem hexDigit?_digit {value : Nat} (small : value < 16) :
    ∃ byte, String.utf8EncodeChar (Hex.digit value) = [byte] ∧ hexDigit? byte = some value := by
  have every : ∀ index : Fin 16,
      String.utf8EncodeChar (Hex.digit index) = [(Hex.digit index).toNat.toUInt8] ∧
        hexDigit? (Hex.digit index).toNat.toUInt8 = some index.val := by decide
  exact ⟨_, every ⟨value, small⟩⟩

/-- A control character that is escaped by its number. -/
theorem exists_readBehind_numbered {character : Char} (control : character.toNat < 32)
    (earlier : Octets) (index : Nat) (rest : Octets) :
    ∃ later, readBehind earlier index
        (octetsOf ('\\' :: 'u' :: '0' :: '0' :: Hex.pair character.toNat.toUInt8) ++ rest) =
      readBehind ((String.utf8EncodeChar character).reverse ++ earlier) later rest := by
  obtain ⟨high, highWritten, highRead⟩ :=
    hexDigit?_digit (show character.toNat / 16 < 16 by omega)
  obtain ⟨low, lowWritten, lowRead⟩ :=
    hexDigit?_digit (show character.toNat % 16 < 16 by omega)
  have number : (character.toNat.toUInt8).toNat = character.toNat := by
    rw [Nat.toUInt8_eq, UInt8.toNat_ofNat']
    omega
  have written : octetsOf ('\\' :: 'u' :: '0' :: '0' :: Hex.pair character.toNat.toUInt8) =
      [0x5c, 0x75, 0x30, 0x30, high, low] := by
    have first : String.utf8EncodeChar '\\' = [0x5c] := rfl
    have second : String.utf8EncodeChar 'u' = [0x75] := rfl
    have zero : String.utf8EncodeChar '0' = [0x30] := rfl
    simp only [octetsOf, Hex.pair, number, List.flatMap_cons, List.flatMap_nil, highWritten,
      lowWritten, first, second, zero]
    rfl
  have zero : hexDigit? 0x30 = some 0 := rfl
  have whole : ((0 * 16 + 0) * 16 + character.toNat / 16) * 16 + character.toNat % 16 =
      character.toNat := by omega
  have read : unit ([0x30, 0x30, high, low] ++ rest) = .ok character.toNat := by
    simp only [List.cons_append, List.nil_append, unit, zero, highRead, lowRead, whole]
  have alone : isTrailing character.toNat = false ∧ isLeading character.toNat = false := by
    simp only [isTrailing, isLeading, Bool.and_eq_false_iff, decide_eq_false_iff_not]
    omega
  refine ⟨index + 1 + 5, ?_⟩
  rw [written, List.cons_append, List.cons_append, readBehind, if_neg (by decide), if_pos rfl]
  simp only [escape, if_pos, numbered, read, alone, Bool.false_eq_true, if_false, Quoted.character,
    Char.ofNat_toNat]
  rfl

/-- What is written for a character is read as its octets. -/
theorem exists_readBehind_escape (character : Char) (earlier : Octets) (index : Nat)
    (rest : Octets) :
    ∃ later, readBehind earlier index (octetsOf (Writer.escape character) ++ rest) =
      readBehind ((String.utf8EncodeChar character).reverse ++ earlier) later rest := by
  by_cases special : character = '"' ∨ character = '\\' ∨ character = '\u0008' ∨
      character = '\u000c' ∨ character = '\n' ∨ character = '\r' ∨ character = '\t'
  · rcases special with rfl | rfl | rfl | rfl | rfl | rfl | rfl <;>
      exact ⟨_, readBehind_short rfl earlier index rest⟩
  · simp only [not_or] at special
    obtain ⟨noQuote, noBackslash, others⟩ := special
    by_cases control : character.toNat < 32
    · have escaped : Writer.escape character =
          '\\' :: 'u' :: '0' :: '0' :: Hex.pair character.toNat.toUInt8 := by
        simp only [Writer.escape, noQuote, noBackslash, others, if_false, if_pos control]
      rw [escaped]
      exact exists_readBehind_numbered control earlier index rest
    · have visible := Nat.not_lt.mp control
      rw [Writer.escape_eq_self visible noQuote noBackslash, octetsOf, List.flatMap_singleton]
      exact exists_readBehind_plain
        (fun byte mem => isPlain_of_mem visible noQuote noBackslash mem) earlier index rest

theorem exists_readBehind_escapes (characters : List Char) (earlier : Octets) (index : Nat)
    (rest : Octets) :
    ∃ later, readBehind earlier index (octetsOf (characters.flatMap Writer.escape) ++ rest) =
      readBehind ((octetsOf characters).reverse ++ earlier) later rest := by
  induction characters generalizing earlier index with
  | nil => exact ⟨index, rfl⟩
  | cons character characters inductionHypothesis =>
    obtain ⟨middle, first⟩ := exists_readBehind_escape character earlier index
      (octetsOf (characters.flatMap Writer.escape) ++ rest)
    obtain ⟨later, others⟩ := inductionHypothesis
      ((String.utf8EncodeChar character).reverse ++ earlier) middle
    refine ⟨later, ?_⟩
    rw [List.flatMap_cons, octetsOf, List.flatMap_append, List.append_assoc, first, others]
    simp only [octetsOf, List.flatMap_cons, List.reverse_append, List.append_assoc]

/-- The octets of a quoted text behind its opening quote. -/
def written (content : String) : Octets :=
  octetsOf (content.toList.flatMap Writer.escape) ++ [0x22]

theorem encode_quoted (content : String) :
    Utf8.encode (Writer.quoted content) = 0x22 :: written content := by
  rw [Utf8.encode_eq_flatMap, Writer.quoted, String.toList_ofList, List.flatMap_cons,
    List.flatMap_append]
  rfl

/-- A quoted text is read as it is. -/
theorem takes_read (content : String) (rest : Octets) :
    Takes read (written content) content rest := by
  intro index
  obtain ⟨later, whole⟩ := exists_readBehind_escapes content.toList [] index (0x22 :: rest)
  refine ⟨later + 1, ?_⟩
  have decoded : Utf8.decode? (octetsOf content.toList) = some content :=
    Utf8.decode?_eq_some_iff.mpr (Utf8.encode_eq_flatMap content).symm
  rw [read, written, List.append_assoc, List.singleton_append, whole, List.append_nil, readBehind,
    if_pos rfl, List.reverse_reverse, decoded]
  rfl

end Quoted

namespace Number

/-- Nothing that could continue a number stands in front. -/
def Ends (rest : Octets) : Prop :=
  ∀ byte ∈ rest.head?, digit? byte = none ∧ byte ≠ 0x2e ∧ byte ≠ 0x65 ∧ byte ≠ 0x45

theorem digit?_of_isDigit {character : Char} (digit : character.isDigit = true) :
    ∃ byte, String.utf8EncodeChar character = [byte] ∧
      digit? byte = some (character.toNat - '0'.toNat) := by
  obtain ⟨low, high⟩ : 48 ≤ character.toNat ∧ character.toNat ≤ 57 := by
    simpa [Char.isDigit, UInt32.le_iff_toNat_le] using digit
  have every : ∀ value : Fin 10,
      String.utf8EncodeChar (Char.ofNat (48 + value)) = [(48 + value.val).toUInt8] ∧
        digit? (48 + value.val).toUInt8 = some value.val := by decide
  have named := every ⟨character.toNat - 48, by omega⟩
  have whole : 48 + (character.toNat - 48) = character.toNat := by omega
  simp only [whole, Char.ofNat_toNat] at named
  exact ⟨_, named⟩

theorem le_ofDigitChars (digits : List Char) (start : Nat) :
    start ≤ Nat.ofDigitChars 10 digits start := by
  induction digits generalizing start with
  | nil => exact Nat.le_refl _
  | cons digit digits inductionHypothesis =>
    rw [Nat.ofDigitChars_cons]
    refine Nat.le_trans ?_ (inductionHypothesis _)
    omega

/-- All digits of a number that fits into 64 bits are kept. -/
theorem digitsBehind_eq {digits : List Char} (all : ∀ digit ∈ digits, digit.isDigit = true)
    {rest : Octets} (ends : Ends rest) (significand kept index : Nat)
    (fits : Nat.ofDigitChars 10 digits significand < UInt64.size) :
    ∃ later, digitsBehind significand kept 0 index (octetsOf digits ++ rest) =
      ⟨Nat.ofDigitChars 10 digits significand, kept + digits.length, 0, ⟨later, rest⟩⟩ := by
  induction digits generalizing significand kept index with
  | nil =>
    refine ⟨index, ?_⟩
    cases rest with
    | nil => rfl
    | cons byte rest =>
      have other := (ends byte rfl).1
      simp only [octetsOf, List.flatMap_nil, List.nil_append, digitsBehind, other,
        Nat.ofDigitChars_nil, List.length_nil, Nat.add_zero]
  | cons digit digits inductionHypothesis =>
    obtain ⟨byte, single, value⟩ := digit?_of_isDigit (all digit List.mem_cons_self)
    rw [Nat.ofDigitChars_cons] at fits ⊢
    have longer : significand * 10 + (digit.toNat - '0'.toNat) < UInt64.size := by
      rw [Nat.mul_comm]
      exact Nat.lt_of_le_of_lt (le_ofDigitChars digits _) fits
    obtain ⟨later, read⟩ := inductionHypothesis
      (fun other mem => all other (List.mem_cons_of_mem _ mem)) _ (kept + 1) (index + 1) fits
    refine ⟨later, ?_⟩
    rw [octetsOf, List.flatMap_cons, single, List.append_assoc, List.singleton_append, digitsBehind,
      value]
    simp only [true_and, if_pos longer]
    rw [Nat.mul_comm significand, read, List.length_cons, Nat.add_assoc, Nat.add_comm 1]

/-- The decimal text of a positive number does not start with a zero. -/
theorem head?_toDigits_ne {number : Nat} (positive : 0 < number) :
    (Nat.toDigits 10 number).head? ≠ some '0' := by
  induction number using Nat.strongRecOn with
  | ind number inductionHypothesis =>
    rw [Nat.toDigits_eq_if (by decide)]
    split
    · rename_i small
      have every : ∀ value : Fin 10, value.val ≠ 0 → Nat.digitChar value ≠ '0' := by decide
      simpa using every ⟨number, small⟩ positive.ne'
    · have shorter : number / 10 < number := Nat.div_lt_self positive (by decide)
      have longer : 0 < number / 10 := by omega
      rw [List.head?_append_of_ne_nil _ (Nat.toDigits_ne_nil)]
      exact inductionHypothesis _ shorter longer

theorem behindInteger_of_ends {rest : Octets} (ends : Ends rest) (negative : Bool)
    (significand kept index : Nat) :
    behindInteger negative ⟨significand, kept, 0, ⟨index, rest⟩⟩ =
      .ok (ofInteger negative significand, ⟨index, rest⟩) := by
  have noPoint : rest.head? ≠ some 0x2e := fun point => (ends _ point).2.1 rfl
  have noExponent : startsExponent ⟨index, rest⟩ = false := by
    simp only [startsExponent, Bool.or_eq_false_iff, decide_eq_false_iff_not]
    exact ⟨fun letter => (ends _ letter).2.2.1 rfl, fun letter => (ends _ letter).2.2.2 rfl⟩
  simp only [behindInteger, if_neg noPoint, noExponent, Bool.false_eq_true, if_false,
    Nat.lt_irrefl]

/-- The decimal text of a number that fits into 64 bits is read as that number. -/
theorem takes_unsigned {number : Nat} (fits : number < UInt64.size) {rest : Octets}
    (ends : Ends rest) (negative : Bool) :
    Takes (unsigned negative) (octetsOf (Nat.toDigits 10 number)) (ofInteger negative number)
      rest := by
  intro index
  obtain rfl | positive := Nat.eq_zero_or_pos number
  · have alone : (rest.head?.bind digit?).isSome = false := by
      cases rest with
      | nil => rfl
      | cons byte rest => simpa using (ends byte rfl).1
    have written : octetsOf (Nat.toDigits 10 0) = [0x30] := rfl
    refine ⟨index + 1, ?_⟩
    rw [written, List.singleton_append, unsigned]
    simp only [show digit? 0x30 = some 0 from rfl, alone, Bool.false_eq_true, if_false]
    exact behindInteger_of_ends ends negative 0 1 (index + 1)
  · have all : ∀ digit ∈ Nat.toDigits 10 number, digit.isDigit = true :=
      fun digit mem => Nat.isDigit_of_mem_toDigits (by decide) (by decide) mem
    have whole : Nat.ofDigitChars 10 (Nat.toDigits 10 number) 0 = number :=
      Nat.ofDigitChars_ten_toDigits
    obtain ⟨later, read⟩ := digitsBehind_eq all ends 0 0 index (by rwa [whole])
    refine ⟨later, ?_⟩
    have first := head?_toDigits_ne positive
    rcases shown : Nat.toDigits 10 number with _ | ⟨digit, others⟩
    · exact absurd shown Nat.toDigits_ne_nil
    · rw [shown] at all read first whole
      obtain ⟨byte, single, value⟩ := digit?_of_isDigit (all digit List.mem_cons_self)
      have nonzero : digit.toNat - '0'.toNat ≠ 0 := by
        intro zero
        apply first
        have low : 48 ≤ digit.toNat := by
          have bounds := all digit List.mem_cons_self
          simp only [Char.isDigit, Bool.and_eq_true, decide_eq_true_eq] at bounds
          exact UInt32.le_iff_toNat_le.mp bounds.1
        have code : digit.toNat = '0'.toNat := by
          change digit.toNat - 48 = 0 at zero
          change digit.toNat = 48
          omega
        rw [List.head?_cons, Char.toNat_inj.mp code]
      rw [octetsOf, List.flatMap_cons, single, List.singleton_append, List.cons_append] at read ⊢
      simp only [unsigned, value]
      rw [digits, read, whole]
      exact behindInteger_of_ends ends negative _ _ _

end Number

/-- Values that are written so that they are read back, nested within some depth: without doubles,
with integers of 64 bits with their sign, and without an object that stands for another value. -/
inductive Plain : Nat → Value → Prop
  | null {depth : Nat} : Plain depth .null
  | boolean {depth : Nat} (value : Bool) : Plain depth (.boolean value)
  | integer {depth : Nat} {value : Int} (lower : -(1 <<< 63 : Nat) ≤ value)
    (upper : value < (UInt64.size : Nat)) : Plain depth (.integer value)
  | text {depth : Nat} (content : String) : Plain depth (.text content)
  | array {depth : Nat} {items : List Value} (plain : ∀ item ∈ items, Plain depth item) :
    Plain (depth + 1) (.array items)
  | object {depth : Nat} {members : List (String × Value)}
    (own : ∀ member ∈ members.head?, member.1 ≠ Parser.enclosingName)
    (plain : ∀ member ∈ members, Plain depth member.2) : Plain (depth + 1) (.object members)

namespace Parser

/-- Nothing stands behind a value, or what may stand behind one in a list or an object. -/
def Ends (rest : Octets) : Prop :=
  ∀ byte ∈ rest.head?, byte = 0x2c ∨ byte = 0x5d ∨ byte = 0x7d

theorem Ends.number {rest : Octets} (ends : Ends rest) : Number.Ends rest := by
  intro byte first
  rcases ends byte first with rfl | rfl | rfl <;> decide

theorem ends_nil : Ends [] := by
  rintro byte ⟨⟩

theorem ends_cons {byte : UInt8} (allowed : byte = 0x2c ∨ byte = 0x5d ∨ byte = 0x7d)
    (rest : Octets) : Ends (byte :: rest) := by
  rintro other ⟨⟩
  exact allowed

theorem skipBlanks_cons {byte : UInt8} (visible : Cursor.isBlank byte = false) (index : Nat)
    (rest : Octets) : Cursor.skipBlanks ⟨index, byte :: rest⟩ = ⟨index, byte :: rest⟩ := by
  simp only [Cursor.skipBlanks, Cursor.behindBlanks, visible, Bool.false_eq_true, if_false]

variable {inner : String → Except ParseError Value}

/-- A value that starts like none that is nested is read as a simple one. -/
theorem value_eq_simple {byte : UInt8} (visible : Cursor.isBlank byte = false)
    (noList : byte ≠ 0x5b) (noObject : byte ≠ 0x7b) (depth index : Nat) (rest : Octets) :
    value inner depth ⟨index, byte :: rest⟩ = simple ⟨index, byte :: rest⟩ := by
  unfold value
  simp only [skipBlanks_cons visible]
  split
  · rename_i same
    exact absurd (List.cons.inj same).1 noList
  · rename_i same
    exact absurd (List.cons.inj same).1 noObject
  · rfl

/-- A fixed word is read behind its first letter. -/
theorem takes_word {first : UInt8} {others : Octets} {found : Value}
    (visible : Cursor.isBlank first = false) (noList : first ≠ 0x5b) (noObject : first ≠ 0x7b)
    (named : ∀ index rest, simple ⟨index, first :: rest⟩ = word found others ⟨index + 1, rest⟩)
    (depth : Nat) (rest : Octets) : Takes (value inner depth) (first :: others) found rest := by
  have spelled (octets : Octets) (index : Nat) : ∃ later,
      word found octets ⟨index, octets ++ rest⟩ = .ok (found, ⟨later, rest⟩) := by
    induction octets generalizing index with
    | nil => exact ⟨index, rfl⟩
    | cons byte octets inductionHypothesis =>
      simpa only [List.cons_append, word, if_pos] using inductionHypothesis (index + 1)
  intro index
  rw [List.cons_append, value_eq_simple visible noList noObject, named]
  exact spelled others (index + 1)

/-- A negative number is read behind its sign. -/
theorem takes_negative {number : Nat} (positive : 0 < number) (fits : number ≤ 1 <<< 63)
    {rest : Octets} (ends : Ends rest) (depth : Nat) :
    Takes (value inner depth) (0x2d :: octetsOf (Nat.toDigits 10 number))
      (.integer (-(number : Int))) rest := by
  intro index
  have small : number < UInt64.size := Nat.lt_of_le_of_lt fits (by decide)
  obtain ⟨later, read⟩ := Number.takes_unsigned small ends.number true (index + 1)
  have kept : Number.ofInteger true number = .integer (-(number : Int)) :=
    Number.ofInteger_eq_integer_iff.mpr ⟨rfl, fun _ => ⟨positive.ne', fits⟩⟩
  refine ⟨later, ?_⟩
  rw [List.cons_append, value_eq_simple (by decide) (by decide) (by decide), ← kept]
  exact read

/-- Some octets start with one that is neither blank nor the end of a list. -/
def Starts (octets : Octets) : Prop :=
  ∃ byte rest, octets = byte :: rest ∧ Cursor.isBlank byte = false ∧ byte ≠ 0x5d

/-- The text of a value is read as that value, wherever it may stand. -/
def ReadsBack (element : Cursor → Reading Value) (value : Value) : Prop :=
  Starts (Utf8.encode (Writer.render value)) ∧
    ∀ rest, Ends rest → Takes element (Utf8.encode (Writer.render value)) value rest

/-- The digits of a number start with an octet that is a digit. -/
theorem exists_cons_digits (number : Nat) :
    ∃ byte rest value, octetsOf (Nat.toDigits 10 number) = byte :: rest ∧
      Number.digit? byte = some value := by
  rcases digits : Nat.toDigits 10 number with _ | ⟨digit, others⟩
  · exact absurd digits Nat.toDigits_ne_nil
  · have mem : digit ∈ Nat.toDigits 10 number := digits ▸ List.mem_cons_self
    obtain ⟨byte, single, value⟩ := Number.digit?_of_isDigit
      (Nat.isDigit_of_mem_toDigits (by decide) (by decide) mem)
    refine ⟨byte, octetsOf others, _, ?_, value⟩
    rw [octetsOf, List.flatMap_cons, single]
    rfl

/-- A digit is no other octet that a value may start with. -/
theorem ne_of_digit? {byte letter : UInt8} {value : Nat} (digit : Number.digit? byte = some value)
    (plain : Number.digit? letter = none) : byte ≠ letter := by
  rintro rfl
  cases plain.symm.trans digit

theorem isBlank_of_digit? {byte : UInt8} {value : Nat} (digit : Number.digit? byte = some value) :
    Cursor.isBlank byte = false := by
  simp only [Cursor.isBlank, Bool.or_eq_false_iff, decide_eq_false_iff_not]
  exact ⟨⟨⟨ne_of_digit? digit rfl, ne_of_digit? digit rfl⟩, ne_of_digit? digit rfl⟩,
    ne_of_digit? digit rfl⟩

theorem starts_digits (number : Nat) : Starts (octetsOf (Nat.toDigits 10 number)) := by
  obtain ⟨byte, rest, value, octets, digit⟩ := exists_cons_digits number
  exact ⟨byte, rest, octets, isBlank_of_digit? digit, ne_of_digit? digit rfl⟩

/-- A number without a sign is read as an integer. -/
theorem takes_natural {number : Nat} (fits : number < UInt64.size) {rest : Octets}
    (ends : Ends rest) (depth : Nat) :
    Takes (value inner depth) (octetsOf (Nat.toDigits 10 number)) (.integer number) rest := by
  intro index
  obtain ⟨later, read⟩ := Number.takes_unsigned fits ends.number false index
  have kept : Number.ofInteger false number = .integer number :=
    Number.ofInteger_eq_integer_iff.mpr ⟨rfl, nofun⟩
  obtain ⟨byte, others, value, octets, digit⟩ := exists_cons_digits number
  refine ⟨later, ?_⟩
  rw [kept] at read
  rw [← read, octets, List.cons_append, value_eq_simple (isBlank_of_digit? digit)
    (ne_of_digit? digit rfl) (ne_of_digit? digit rfl)]
  have noWord : byte ≠ 0x6e ∧ byte ≠ 0x74 ∧ byte ≠ 0x66 :=
    ⟨ne_of_digit? digit rfl, ne_of_digit? digit rfl, ne_of_digit? digit rfl⟩
  have noSign : byte ≠ 0x2d := ne_of_digit? digit rfl
  simp only [simple, noWord, noSign, if_false, digit, Option.isSome_some, if_pos]

theorem takes_quoted (content : String) (depth : Nat) (rest : Octets) :
    Takes (value inner depth) (Utf8.encode (Writer.quoted content)) (.text content) rest := by
  intro index
  obtain ⟨later, read⟩ := Quoted.takes_read content rest (index + 1)
  refine ⟨later, ?_⟩
  rw [Quoted.encode_quoted, List.cons_append,
    value_eq_simple (by decide) (by decide) (by decide)]
  simp only [simple, show (0x22 : UInt8) ≠ 0x6e by decide, show (0x22 : UInt8) ≠ 0x74 by decide,
    show (0x22 : UInt8) ≠ 0x66 by decide, show (0x22 : UInt8) ≠ 0x2d by decide, if_false,
    show Number.digit? 0x22 = none from rfl, Option.isSome_none, Bool.false_eq_true, if_pos, read]

theorem encode_commas_cons (first : String) {others : List String} (more : others ≠ []) :
    Utf8.encode (Writer.commas (first :: others)) =
      Utf8.encode first ++ 0x2c :: Utf8.encode (Writer.commas others) := by
  rw [Writer.commas, String.intercalate_cons_of_ne_nil more, Utf8.encode_append,
    Utf8.encode_append, List.append_assoc]
  rfl

theorem exists_encode_commas (first : String) (others : List String) :
    ∃ behind, Utf8.encode (Writer.commas (first :: others)) = Utf8.encode first ++ behind := by
  cases others with
  | nil => exact ⟨[], by rw [Writer.commas, String.intercalate_singleton, List.append_nil]⟩
  | cons second others => exact ⟨_, encode_commas_cons first (List.cons_ne_nil _ _)⟩

theorem length_le_encode_commas (texts : List String) :
    texts.length ≤ (Utf8.encode (Writer.commas texts)).length + 1 := by
  induction texts with
  | nil => exact Nat.zero_le _
  | cons first others inductionHypothesis =>
    cases others with
    | nil => simp
    | cons second others =>
      rw [encode_commas_cons first (List.cons_ne_nil _ _), List.length_append]
      simp only [List.length_cons] at inductionHypothesis ⊢
      omega

/-- Texts with commas between them and an end behind them have an octet for each comma. -/
theorem length_lt_encode_commas (first : String) (others : List String) (close : UInt8)
    (rest : Octets) :
    others.length < (Utf8.encode (Writer.commas (first :: others)) ++ [close] ++ rest).length := by
  have count := length_le_encode_commas (first :: others)
  rw [List.length_append, List.length_append, List.length_singleton]
  rw [List.length_cons] at count
  omega

theorem renderItems_eq_map (items : List Value) :
    Writer.renderItems items = items.map Writer.render := by
  induction items with
  | nil => rfl
  | cons item items inductionHypothesis =>
    rw [Writer.renderItems, inductionHypothesis, List.map_cons]

/-- The text of a member. -/
def memberText (member : String × Value) : String :=
  Writer.quoted member.1 ++ ":" ++ Writer.render member.2

theorem renderMembers_eq_map (members : List (String × Value)) :
    Writer.renderMembers members = members.map memberText := by
  induction members with
  | nil => rfl
  | cons member members inductionHypothesis =>
    rw [Writer.renderMembers, inductionHypothesis, List.map_cons]
    rfl

theorem encode_memberText (member : String × Value) :
    Utf8.encode (memberText member) =
      0x22 :: (Quoted.written member.1 ++ 0x3a :: Utf8.encode (Writer.render member.2)) := by
  rw [memberText, Utf8.encode_append, Utf8.encode_append, Quoted.encode_quoted, List.append_assoc,
    List.cons_append]
  rfl

section Nested

variable {element : Cursor → Reading Value}

/-- The octets of a list with an item start like the item. -/
theorem exists_cons_items {item : Value} (reads : ReadsBack element item) (others : List Value)
    (rest : Octets) :
    ∃ byte tail,
      Utf8.encode (Writer.commas ((item :: others).map Writer.render)) ++ [0x5d] ++ rest =
        byte :: tail ∧ Cursor.isBlank byte = false ∧ byte ≠ 0x5d := by
  obtain ⟨byte, own, starts, visible, goesOn⟩ := reads.1
  obtain ⟨more, whole⟩ := exists_encode_commas (Writer.render item) (others.map Writer.render)
  refine ⟨byte, own ++ more ++ [0x5d] ++ rest, ?_, visible, goesOn⟩
  rw [List.map_cons, whole, starts]
  rfl

/-- The items of a list are read to its end. -/
theorem takes_items {item : Value} {others : List Value}
    (reads : ∀ one ∈ item :: others, ReadsBack element one) {bound : Nat}
    (enough : others.length < bound) (earlier : List Value) (rest : Octets) :
    Takes (items element bound earlier)
      (Utf8.encode (Writer.commas ((item :: others).map Writer.render)) ++ [0x5d])
      (earlier.reverse ++ item :: others) rest := by
  intro index
  induction others generalizing item bound earlier index with
  | nil =>
    obtain ⟨bound, rfl⟩ := Nat.exists_eq_add_one_of_ne_zero (Nat.ne_zero_of_lt enough)
    obtain ⟨later, read⟩ := (reads item List.mem_cons_self).2 (0x5d :: rest)
      (ends_cons (.inr (.inl rfl)) rest) index
    refine ⟨later + 1, ?_⟩
    rw [List.map_singleton, Writer.commas, String.intercalate_singleton, List.append_assoc,
      List.singleton_append, items, read]
    simp only [skipBlanks_cons (show Cursor.isBlank 0x5d = false from rfl), List.reverse_cons]
  | cons second others inductionHypothesis =>
    obtain ⟨bound, rfl⟩ := Nat.exists_eq_add_one_of_ne_zero (Nat.ne_zero_of_lt enough)
    have behind : ∀ one ∈ second :: others, ReadsBack element one :=
      fun one mem => reads one (List.mem_cons_of_mem _ mem)
    obtain ⟨byte, tail, front, visible, goesOn⟩ :=
      exists_cons_items (behind second List.mem_cons_self) others rest
    obtain ⟨middle, read⟩ := (reads item List.mem_cons_self).2 (0x2c :: byte :: tail)
      (ends_cons (.inl rfl) _) index
    obtain ⟨later, back⟩ := inductionHypothesis behind (Nat.lt_of_succ_lt_succ enough)
      (item :: earlier) (middle + 1)
    refine ⟨later, ?_⟩
    rw [front] at back
    rw [List.map_cons, encode_commas_cons _ (by simp), List.append_assoc, List.append_assoc,
      List.cons_append, ← List.append_assoc _ [0x5d], front, items, read]
    simp only [skipBlanks_cons (show Cursor.isBlank 0x2c = false from rfl), skipBlanks_cons visible]
    split
    · rename_i same
      cases same
    · rename_i same
      exact absurd (List.cons.inj same).1 goesOn
    · rw [back, List.reverse_cons, List.append_assoc, List.singleton_append]

/-- A list is read behind its opening bracket. -/
theorem takes_list {found : List Value} (reads : ∀ item ∈ found, ReadsBack element item)
    (rest : Octets) :
    Takes (list element) (Utf8.encode (Writer.commas (found.map Writer.render)) ++ [0x5d])
      (.array found) rest := by
  intro index
  cases found with
  | nil => exact ⟨index + 1, rfl⟩
  | cons item others =>
    obtain ⟨byte, tail, front, visible, goesOn⟩ :=
      exists_cons_items (reads item List.mem_cons_self) others rest
    have enough : others.length < (byte :: tail).length := by
      rw [← front, ← List.length_map Writer.render]
      exact length_lt_encode_commas (Writer.render item) (others.map Writer.render) 0x5d rest
    obtain ⟨later, read⟩ := takes_items reads enough [] rest index
    refine ⟨later, ?_⟩
    rw [front] at read ⊢
    simp only [list, skipBlanks_cons visible]
    split
    · rename_i same
      cases same
    · rename_i same
      exact absurd (List.cons.inj same).1 goesOn
    · rw [read]
      rfl

/-- A member is read from its opening quote on. -/
theorem takes_member {found : String × Value} (reads : ReadsBack element found.2) {rest : Octets}
    (ends : Ends rest) : Takes (member element) (Utf8.encode (memberText found)) found rest := by
  intro index
  obtain ⟨middle, named⟩ := Quoted.takes_read found.1
    (0x3a :: (Utf8.encode (Writer.render found.2) ++ rest)) (index + 1)
  obtain ⟨later, read⟩ := reads.2 rest ends (middle + 1)
  refine ⟨later, ?_⟩
  rw [encode_memberText, List.cons_append, List.append_assoc, List.cons_append]
  simp only [member, List.drop_succ_cons, List.drop_zero, named,
    skipBlanks_cons (show Cursor.isBlank 0x3a = false from rfl), read]

/-- The octets of an object with a member start with the name of the member. -/
theorem exists_cons_members (first : String × Value) (others : List (String × Value))
    (rest : Octets) :
    ∃ tail, Utf8.encode (Writer.commas ((first :: others).map memberText)) ++ [0x7d] ++ rest =
      0x22 :: (Quoted.written first.1 ++ 0x3a :: tail) := by
  obtain ⟨more, whole⟩ := exists_encode_commas (memberText first) (others.map memberText)
  refine ⟨Utf8.encode (Writer.render first.2) ++ more ++ [0x7d] ++ rest, ?_⟩
  rw [List.map_cons, whole, encode_memberText]
  simp only [List.append_assoc, List.cons_append]

/-- The members of an object are read to its end. -/
theorem takes_members {first : String × Value} {others : List (String × Value)}
    (reads : ∀ one ∈ first :: others, ReadsBack element one.2) {bound : Nat}
    (enough : others.length < bound) (earlier : List (String × Value)) (rest : Octets) :
    Takes (members element bound earlier)
      (Utf8.encode (Writer.commas ((first :: others).map memberText)) ++ [0x7d])
      (earlier.reverse ++ first :: others) rest := by
  intro index
  induction others generalizing first bound earlier index with
  | nil =>
    obtain ⟨bound, rfl⟩ := Nat.exists_eq_add_one_of_ne_zero (Nat.ne_zero_of_lt enough)
    obtain ⟨later, read⟩ := takes_member (reads first List.mem_cons_self)
      (ends_cons (.inr (.inr rfl)) rest) index
    refine ⟨later + 1, ?_⟩
    rw [List.map_singleton, Writer.commas, String.intercalate_singleton, List.append_assoc,
      List.singleton_append, members, read]
    simp only [skipBlanks_cons (show Cursor.isBlank 0x7d = false from rfl), List.reverse_cons]
  | cons second others inductionHypothesis =>
    obtain ⟨bound, rfl⟩ := Nat.exists_eq_add_one_of_ne_zero (Nat.ne_zero_of_lt enough)
    have behind : ∀ one ∈ second :: others, ReadsBack element one.2 :=
      fun one mem => reads one (List.mem_cons_of_mem _ mem)
    obtain ⟨tail, front⟩ := exists_cons_members second others rest
    obtain ⟨middle, read⟩ := takes_member (reads first List.mem_cons_self)
      (ends_cons (.inl rfl) _) index
    obtain ⟨later, back⟩ := inductionHypothesis behind (Nat.lt_of_succ_lt_succ enough)
      (first :: earlier) (middle + 1)
    refine ⟨later, ?_⟩
    rw [front] at back
    rw [List.map_cons, encode_commas_cons _ (by simp), List.append_assoc, List.append_assoc,
      List.cons_append, ← List.append_assoc _ [0x7d], front, members, read]
    simp only [skipBlanks_cons (show Cursor.isBlank 0x2c = false from rfl),
      skipBlanks_cons (show Cursor.isBlank 0x22 = false from rfl)]
    rw [back, List.reverse_cons, List.append_assoc, List.singleton_append]

/-- An object is read behind its opening brace, unless it stands for another value. -/
theorem takes_object {found : List (String × Value)}
    (reads : ∀ member ∈ found, ReadsBack element member.2)
    (own : ∀ member ∈ found.head?, member.1 ≠ enclosingName) (rest : Octets) :
    Takes (object inner element) (Utf8.encode (Writer.commas (found.map memberText)) ++ [0x7d])
      (.object found) rest := by
  intro index
  cases found with
  | nil => exact ⟨index + 1, rfl⟩
  | cons first others =>
    obtain ⟨tail, front⟩ := exists_cons_members first others rest
    have enough : others.length < (0x22 :: (Quoted.written first.1 ++ 0x3a :: tail)).length := by
      rw [← front, ← List.length_map memberText]
      exact length_lt_encode_commas (memberText first) (others.map memberText) 0x7d rest
    obtain ⟨behind, named⟩ := Quoted.takes_read first.1 (0x3a :: tail) (index + 1)
    obtain ⟨later, read⟩ := takes_members reads enough [] rest index
    refine ⟨later, ?_⟩
    rw [front] at read ⊢
    simp only [object, skipBlanks_cons (show Cursor.isBlank 0x22 = false from rfl), named,
      if_neg (own first rfl), read]
    rfl

end Nested

theorem encode_list (items : List Value) :
    Utf8.encode (Writer.render (.array items)) =
      0x5b :: (Utf8.encode (Writer.commas (items.map Writer.render)) ++ [0x5d]) := by
  rw [Writer.render, renderItems_eq_map, Utf8.encode_append, Utf8.encode_append]
  rfl

theorem encode_object (members : List (String × Value)) :
    Utf8.encode (Writer.render (.object members)) =
      0x7b :: (Utf8.encode (Writer.commas (members.map memberText)) ++ [0x7d]) := by
  rw [Writer.render, renderMembers_eq_map, Utf8.encode_append, Utf8.encode_append]
  rfl

theorem encode_repr (number : Nat) :
    Utf8.encode (Nat.repr number) = octetsOf (Nat.toDigits 10 number) := by
  rw [Utf8.encode_eq_flatMap, Nat.repr_eq_ofList_toDigits, String.toList_ofList]

theorem encode_natural (number : Nat) :
    Utf8.encode (Writer.render (.integer (.ofNat number))) =
      octetsOf (Nat.toDigits 10 number) := by
  rw [Writer.render]
  exact encode_repr number

theorem encode_negative (number : Nat) :
    Utf8.encode (Writer.render (.integer (.negSucc number))) =
      0x2d :: octetsOf (Nat.toDigits 10 (number + 1)) := by
  rw [Writer.render, ← encode_repr]
  exact Utf8.encode_append "-" _

theorem value_list (depth index : Nat) (rest : Octets) :
    value inner (depth + 1) ⟨index, 0x5b :: rest⟩ = list (value inner depth) ⟨index + 1, rest⟩ := by
  rw [value]
  rfl

theorem value_object (depth index : Nat) (rest : Octets) :
    value inner (depth + 1) ⟨index, 0x7b :: rest⟩ =
      object inner (value inner depth) ⟨index + 1, rest⟩ := by
  rw [value]
  rfl

/-- An integer that fits into 64 bits with its sign reads back. -/
theorem readsBack_integer {number : Int} (lower : -(1 <<< 63 : Nat) ≤ number)
    (upper : number < (UInt64.size : Nat)) (depth : Nat) :
    ReadsBack (value inner depth) (.integer number) := by
  cases number with
  | ofNat number =>
    have fits : number < UInt64.size := Int.ofNat_lt.mp upper
    rw [ReadsBack, encode_natural]
    exact ⟨starts_digits number, fun rest ends => takes_natural fits ends depth⟩
  | negSucc number =>
    have fits : number + 1 ≤ 1 <<< 63 := by omega
    rw [ReadsBack, encode_negative]
    refine ⟨⟨0x2d, _, rfl, by decide, by decide⟩, fun rest ends => ?_⟩
    exact takes_negative (Nat.succ_pos number) fits ends depth

/-- Every value that is plain at some depth reads back at that depth. -/
theorem readsBack_of_plain {depth : Nat} {found : Value} (plain : Plain depth found) :
    ReadsBack (value inner depth) found := by
  induction plain with
  | null =>
    refine ⟨⟨0x6e, _, rfl, by decide, by decide⟩, fun rest _ => ?_⟩
    exact takes_word (by decide) (by decide) (by decide) (fun _ _ => rfl) _ rest
  | boolean value =>
    cases value with
    | false =>
      refine ⟨⟨0x66, _, rfl, by decide, by decide⟩, fun rest _ => ?_⟩
      exact takes_word (by decide) (by decide) (by decide) (fun _ _ => rfl) _ rest
    | true =>
      refine ⟨⟨0x74, _, rfl, by decide, by decide⟩, fun rest _ => ?_⟩
      exact takes_word (by decide) (by decide) (by decide) (fun _ _ => rfl) _ rest
  | integer lower upper => exact readsBack_integer lower upper _
  | text content =>
    refine ⟨⟨0x22, _, Quoted.encode_quoted content, by decide, by decide⟩, fun rest _ => ?_⟩
    exact takes_quoted content _ rest
  | array plain inductionHypothesis =>
    rw [ReadsBack, encode_list]
    refine ⟨⟨0x5b, _, rfl, by decide, by decide⟩, fun rest _ index => ?_⟩
    rw [List.cons_append, value_list]
    exact takes_list inductionHypothesis rest (index + 1)
  | object own plain inductionHypothesis =>
    rw [ReadsBack, encode_object]
    refine ⟨⟨0x7b, _, rfl, by decide, by decide⟩, fun rest _ index => ?_⟩
    rw [List.cons_append, value_object]
    exact takes_object inductionHypothesis own rest (index + 1)

end Parser

/-- The text of a plain value is read as that value. -/
theorem parse_render {found : Value} (plain : Plain Parser.depthLimit found) :
    parse (Writer.render found) = .ok found := by
  have readsBack : Parser.ReadsBack (Parser.value
      (Parser.wholeWithin (Writer.render found).utf8ByteSize) Parser.depthLimit) found :=
    Parser.readsBack_of_plain plain
  obtain ⟨later, read⟩ := readsBack.2 [] Parser.ends_nil 0
  rw [List.append_nil] at read
  simp only [parse, Parser.wholeWithin, Parser.whole, read]
  rfl

end CashHerald.Json
