import CashHerald.Proofs.Text.Encoding
import CashHerald.Upgrade.Request
import Mathlib.Data.List.Forall2

/-!
The language of policy probes, and their parts while they come in. Main statements: octets start
with a probe exactly when they are read as one, and of a part of a probe nothing is decided yet only
as long as it is shorter than the shortest probe and without a long s.
-/

namespace CashHerald

namespace Upgrade

namespace PolicyProbe

/-- A character is a letter of the tag in lower or upper case. The long s is a case of the letter
s. -/
def CaseOf (letter character : Char) : Prop :=
  character = letter ∨ character = letter.toUpper ∨ letter = 's' ∧ character = 'ſ'

/-- The text of a probe: the tag in any case, blanks, and the end of the tag. -/
def Probe (text : String) : Prop :=
  ∃ letters blanks, text.toList = letters ++ blanks ++ ['/', '>'] ∧
    List.Forall₂ CaseOf tag letters ∧ ∀ character ∈ blanks, Blank.isBlank character = true

section Letters

variable {letter : Char} {bytes rest : Octets}

/-- What holds of the letters of the tag is checked one by one. -/
theorem forall_mem_tag {property : Char → Prop} [DecidablePred property]
    (checked : (tag.all fun letter => decide (property letter)) = true) :
    ∀ letter ∈ tag, property letter := by
  simpa using checked

/-- The octets that are a letter of the tag in lower or upper case. -/
theorem lowerOctet_eq_iff (mem : letter ∈ tag) {byte : UInt8} : lowerOctet byte = letter.toUInt8 ↔
    [byte] = String.utf8EncodeChar letter ∨ [byte] = String.utf8EncodeChar letter.toUpper := by
  have all : ∀ letter ∈ tag, ∀ byte : Fin 256, lowerOctet (.ofFin byte) = letter.toUInt8 ↔
      [.ofFin byte] = String.utf8EncodeChar letter ∨
        [.ofFin byte] = String.utf8EncodeChar letter.toUpper := forall_mem_tag (by decide +kernel)
  exact all letter mem byte.toFin

/-- The octet that a long s starts with is no letter of the tag. -/
theorem lowerOctet_long_ne (mem : letter ∈ tag) : lowerOctet 0xc5 ≠ letter.toUInt8 := by
  have all : ∀ letter ∈ tag, lowerOctet 0xc5 ≠ letter.toUInt8 :=
    forall_mem_tag (by decide +kernel)
  exact all letter mem

/-- A case of a letter is one octet that the lower case makes the letter's, or the long s. -/
theorem CaseOf.octets {character : Char} (isCase : CaseOf letter character) (mem : letter ∈ tag) :
    (∃ byte, String.utf8EncodeChar character = [byte] ∧ lowerOctet byte = letter.toUInt8) ∨
      letter = 's' ∧ character = 'ſ' := by
  have all : ∀ letter ∈ tag, String.utf8EncodeChar letter = [letter.toUInt8] ∧
      String.utf8EncodeChar letter.toUpper = [letter.toUpper.toUInt8] :=
    forall_mem_tag (by decide +kernel)
  obtain ⟨lower, upper⟩ := all letter mem
  rcases isCase with rfl | rfl | long
  · exact .inl ⟨_, lower, (lowerOctet_eq_iff mem).mpr (.inl lower.symm)⟩
  · exact .inl ⟨_, upper, (lowerOctet_eq_iff mem).mpr (.inr upper.symm)⟩
  · exact .inr long

theorem dropLetter?_eq_some_iff (mem : letter ∈ tag) : dropLetter? letter bytes = some rest ↔
    ∃ character, CaseOf letter character ∧ bytes = String.utf8EncodeChar character ++ rest := by
  constructor
  · intro found
    unfold dropLetter? at found
    split at found
    · cases found
    · rename_i byte later
      split at found
      · rename_i same
        cases found
        rcases (lowerOctet_eq_iff mem).mp same with single | single
        · exact ⟨letter, .inl rfl, by rw [← single]; rfl⟩
        · exact ⟨letter.toUpper, .inr (.inl rfl), by rw [← single]; rfl⟩
      · split at found
        · obtain ⟨rfl, same⟩ := Option.ite_none_right_eq_some.mp found
          cases same
          exact ⟨'ſ', .inr (.inr ⟨rfl, rfl⟩), rfl⟩
        · cases found
  · rintro ⟨character, isCase, rfl⟩
    rcases isCase.octets mem with ⟨byte, single, same⟩ | ⟨rfl, rfl⟩
    · rw [single]
      exact if_pos same
    · rfl

theorem dropTag?_eq_some_iff {letters : List Char} (known : ∀ letter ∈ letters, letter ∈ tag) :
    dropTag? letters bytes = some rest ↔ ∃ characters, List.Forall₂ CaseOf letters characters ∧
      bytes = characters.flatMap String.utf8EncodeChar ++ rest := by
  induction letters generalizing bytes with
  | nil => simp [dropTag?, eq_comm]
  | cons letter letters inductionHypothesis =>
    obtain ⟨mem, others⟩ := List.forall_mem_cons.mp known
    rw [dropTag?]
    constructor
    · intro found
      split at found
      · cases found
      · rename_i later first
        obtain ⟨character, isCase, rfl⟩ := (dropLetter?_eq_some_iff mem).mp first
        obtain ⟨characters, cases, rfl⟩ := (inductionHypothesis others).mp found
        exact ⟨character :: characters, .cons isCase cases, by simp⟩
    · rintro ⟨_, isCases, rfl⟩
      obtain ⟨character, characters, isCase, cases, rfl⟩ := List.forall₂_cons_left_iff.mp isCases
      have first := (dropLetter?_eq_some_iff mem).mpr ⟨character, isCase,
        (by simp : (character :: characters).flatMap String.utf8EncodeChar ++ rest =
          _ ++ (characters.flatMap String.utf8EncodeChar ++ rest))⟩
      rw [first]
      exact (inductionHypothesis others).mpr ⟨characters, cases, rfl⟩

end Letters

section Blanks

variable {bytes rest : Octets}

theorem dropBlank?_eq_some_iff : dropBlank? bytes = some rest ↔
    ∃ blank, Blank.isBlank blank = true ∧ bytes = String.utf8EncodeChar blank ++ rest := by
  constructor
  · intro found
    obtain ⟨blank, mem, starts⟩ := List.exists_of_findSome?_eq_some found
    exact ⟨blank, List.contains_iff_mem.mpr mem, eq_append_of_isPrefixOf? starts⟩
  · rintro ⟨blank, isBlank, rfl⟩
    have isSome : (dropBlank? (String.utf8EncodeChar blank ++ rest)).isSome := by
      rw [dropBlank?, List.findSome?_isSome_iff]
      exact ⟨blank, List.contains_iff_mem.mp isBlank,
        Option.isSome_of_eq_some (List.isPrefixOf?_eq_some_iff_append_eq.mpr rfl)⟩
    obtain ⟨later, found⟩ := Option.isSome_iff_exists.mp isSome
    obtain ⟨other, -, starts⟩ := List.exists_of_findSome?_eq_some found
    rw [found, (Utf8.utf8EncodeChar_append_inj (eq_append_of_isPrefixOf? starts)).2]

theorem closes_iff : closes bytes = true ↔
    ∃ blanks rest, (∀ character ∈ blanks, Blank.isBlank character = true) ∧
      bytes = (blanks ++ ['/', '>']).flatMap String.utf8EncodeChar ++ rest := by
  fun_induction closes bytes with
  | case1 rest => exact iff_of_true rfl ⟨[], rest, by simp, rfl⟩
  | case2 bytes other stuck =>
    refine iff_of_false Bool.false_ne_true ?_
    rintro ⟨blanks, rest, isBlanks, rfl⟩
    cases blanks with
    | nil => exact other _ rfl
    | cons blank blanks =>
      have found := dropBlank?_eq_some_iff.mpr ⟨blank, isBlanks blank List.mem_cons_self,
        (by simp : (blank :: blanks ++ ['/', '>']).flatMap String.utf8EncodeChar ++ rest =
          _ ++ ((blanks ++ ['/', '>']).flatMap String.utf8EncodeChar ++ rest))⟩
      rw [stuck] at found
      cases found
  | case3 bytes other later found inductionHypothesis =>
    rw [inductionHypothesis]
    obtain ⟨blank, isBlank, rfl⟩ := dropBlank?_eq_some_iff.mp found
    constructor
    · rintro ⟨blanks, rest, isBlanks, rfl⟩
      exact ⟨blank :: blanks, rest, List.forall_mem_cons.mpr ⟨isBlank, isBlanks⟩, by simp⟩
    · rintro ⟨blanks, rest, isBlanks, same⟩
      cases blanks with
      | nil => exact absurd same (other _)
      | cons first blanks =>
        obtain ⟨-, others⟩ := List.forall_mem_cons.mp isBlanks
        refine ⟨blanks, rest, others, ?_⟩
        rw [List.cons_append, List.flatMap_cons, List.append_assoc] at same
        exact (Utf8.utf8EncodeChar_append_inj same).2

end Blanks

/-- Octets are read as a probe exactly when they start with one. -/
theorem isProbe_iff {data : Octets} : isProbe data = true ↔
    ∃ text rest, Probe text ∧ data = Utf8.encode text ++ rest := by
  simp only [Utf8.encode_eq_flatMap]
  constructor
  · intro read
    unfold isProbe at read
    split at read
    · cases read
    · rename_i later found
      obtain ⟨letters, cases, rfl⟩ := (dropTag?_eq_some_iff fun _ mem => mem).mp found
      obtain ⟨blanks, rest, isBlanks, rfl⟩ := closes_iff.mp read
      refine ⟨String.ofList (letters ++ blanks ++ ['/', '>']), rest,
        ⟨letters, blanks, String.toList_ofList, cases, isBlanks⟩, ?_⟩
      rw [String.toList_ofList]
      simp
  · rintro ⟨text, rest, ⟨letters, blanks, whole, cases, isBlanks⟩, rfl⟩
    have found := (dropTag?_eq_some_iff fun _ mem => mem).mpr ⟨letters, cases,
      (by rw [whole]; simp : text.toList.flatMap String.utf8EncodeChar ++ rest =
        _ ++ ((blanks ++ ['/', '>']).flatMap String.utf8EncodeChar ++ rest))⟩
    simp only [isProbe, found]
    exact closes_iff.mpr ⟨blanks, rest, isBlanks, rfl⟩

section Parts

variable {text : String} {part later : Octets}

theorem closing_append_inj {blanks others : List Char} {front back : Octets}
    (isBlanks : ∀ character ∈ blanks, Blank.isBlank character = true)
    (isOthers : ∀ character ∈ others, Blank.isBlank character = true)
    (same : (blanks ++ ['/', '>']).flatMap String.utf8EncodeChar ++ front =
      (others ++ ['/', '>']).flatMap String.utf8EncodeChar ++ back) :
    blanks = others ∧ front = back := by
  have visible : Blank.isBlank '/' ≠ true := by decide
  induction blanks generalizing others with
  | nil =>
    cases others with
    | nil => exact ⟨rfl, List.append_cancel_left same⟩
    | cons other others =>
      simp only [List.nil_append, List.cons_append, List.flatMap_cons, List.append_assoc] at same
      obtain ⟨rfl, -⟩ := Utf8.utf8EncodeChar_append_inj same
      exact absurd (isOthers _ List.mem_cons_self) visible
  | cons blank blanks inductionHypothesis =>
    cases others with
    | nil =>
      simp only [List.nil_append, List.cons_append, List.flatMap_cons, List.append_assoc] at same
      obtain ⟨rfl, -⟩ := Utf8.utf8EncodeChar_append_inj same
      exact absurd (isBlanks _ List.mem_cons_self) visible
    | cons other others =>
      rw [List.cons_append, List.cons_append, List.flatMap_cons, List.flatMap_cons,
        List.append_assoc, List.append_assoc] at same
      obtain ⟨rfl, next⟩ := Utf8.utf8EncodeChar_append_inj same
      obtain ⟨rfl, rest⟩ := inductionHypothesis (List.forall_mem_cons.mp isBlanks).2
        (List.forall_mem_cons.mp isOthers).2 next
      exact ⟨rfl, rest⟩

/-- No probe starts with another one. -/
theorem Probe.append_inj {other : String} {front back : Octets} (probe : Probe text)
    (another : Probe other) (same : Utf8.encode text ++ front = Utf8.encode other ++ back) :
    front = back := by
  obtain ⟨letters, blanks, whole, cases, isBlanks⟩ := probe
  obtain ⟨otherLetters, otherBlanks, otherWhole, otherCases, isOthers⟩ := another
  simp only [Utf8.encode_eq_flatMap, whole, otherWhole, List.append_assoc,
      List.flatMap_append] at same
  have length := cases.length_eq.symm.trans otherCases.length_eq
  obtain ⟨-, closing⟩ := Utf8.flatMap_append_inj length same
  exact (closing_append_inj isBlanks isOthers (by simpa using closing)).2

/-- A part of a probe is not read as one. -/
theorem Probe.isProbe_part (probe : Probe text) (cut : part ++ later = Utf8.encode text)
    (missing : later ≠ []) : isProbe part = false := by
  by_contra read
  obtain ⟨other, rest, another, rfl⟩ := isProbe_iff.mp (Bool.not_eq_false _ ▸ read)
  have same : Utf8.encode text ++ [] = Utf8.encode other ++ (rest ++ later) := by
    rw [List.append_nil, ← cut, List.append_assoc]
  have nothing := probe.append_inj another same
  exact missing (List.append_eq_nil_iff.mp nothing.symm).2

/-- The octets that characters start with are those of the letters in lower case unless there is a
long s among them. -/
theorem map_lowerOctet_eq_iff {letters characters : List Char}
    (known : ∀ letter ∈ letters, letter ∈ tag) (cases : List.Forall₂ CaseOf letters characters)
    (leads : part <+: characters.flatMap String.utf8EncodeChar)
    (short : part.length ≤ letters.length) :
    part.map lowerOctet = (letters.take part.length).map Char.toUInt8 ↔ 0xc5 ∉ part := by
  induction cases generalizing part with
  | nil =>
    obtain rfl := List.length_eq_zero_iff.mp (Nat.le_zero.mp short)
    simp
  | @cons letter character letters characters isCase cases inductionHypothesis =>
    cases part with
    | nil => simp
    | cons byte part =>
      obtain ⟨mem, others⟩ := List.forall_mem_cons.mp known
      rw [List.flatMap_cons] at leads
      rcases isCase.octets mem with ⟨octet, single, same⟩ | ⟨rfl, rfl⟩
      · rw [single] at leads
        obtain ⟨rfl, next⟩ := List.cons_prefix_cons.mp leads
        have differs : 0xc5 ≠ byte := by
          rintro rfl
          exact lowerOctet_long_ne mem same
        have behind := inductionHypothesis others next (Nat.le_of_succ_le_succ short)
        simpa [same, differs] using behind
      · obtain ⟨rfl, -⟩ := List.cons_prefix_cons.mp leads
        have differs := lowerOctet_long_ne mem
        simp [differs]

/-- Cases of some letters have one octet each unless there is a long s among them. -/
theorem length_flatMap_eq_iff {letters characters : List Char}
    (known : ∀ letter ∈ letters, letter ∈ tag) (cases : List.Forall₂ CaseOf letters characters) :
    (characters.flatMap String.utf8EncodeChar).length = letters.length ↔
      0xc5 ∉ characters.flatMap String.utf8EncodeChar := by
  induction cases with
  | nil => simp
  | @cons letter character letters characters isCase cases inductionHypothesis =>
    obtain ⟨mem, others⟩ := List.forall_mem_cons.mp known
    rcases isCase.octets mem with ⟨octet, single, same⟩ | ⟨rfl, rfl⟩
    · have differs : 0xc5 ≠ octet := by
        rintro rfl
        exact lowerOctet_long_ne mem same
      have behind := inductionHypothesis others
      simpa [single, differs] using behind
    · have enough := Utf8.length_le_length_flatMap characters
      rw [← cases.length_eq] at enough
      have two : String.utf8EncodeChar 'ſ' = [0xc5, 0xbf] := rfl
      refine iff_of_false ?_ ?_
      · simp only [List.flatMap_cons, two, List.length_append, List.length_cons, List.length_nil]
        omega
      · simp [two]

theorem Probe.mayBecomeProbe_part (probe : Probe text) (cut : part ++ later = Utf8.encode text) :
    mayBecomeProbe part = true ↔
      part.length < tag.length + 2 ∧ 0xc5 ∉ part.take tag.length := by
  obtain ⟨letters, blanks, whole, cases, -⟩ := probe
  have leads : part.take tag.length <+: letters.flatMap String.utf8EncodeChar := by
    have leading : letters.flatMap String.utf8EncodeChar <+: Utf8.encode text := by
      rw [Utf8.encode_eq_flatMap, whole, List.append_assoc, List.flatMap_append]
      exact List.prefix_append _ _
    have starts : part.take tag.length <+: Utf8.encode text :=
      (List.take_prefix _ _).trans (cut ▸ List.prefix_append part later)
    refine List.prefix_of_prefix_length_le starts leading ?_
    have enough := Utf8.length_le_length_flatMap letters
    rw [← cases.length_eq] at enough
    exact Nat.le_trans (List.length_take_le _ _) enough
  have same := map_lowerOctet_eq_iff (fun _ mem => mem) cases leads (List.length_take_le _ _)
  have sized : tag.take (part.take tag.length).length = tag.take part.length := by
    rw [List.length_take, Nat.min_comm, ← List.take_take, List.take_length]
  rw [sized] at same
  simp only [mayBecomeProbe, Bool.and_eq_true, decide_eq_true_eq, beq_iff_eq, same]

/-- A probe has at least the octets of the tag and its end, and one with just as many has no long
s. -/
theorem Probe.length_le (probe : Probe text) :
    tag.length + 2 ≤ (Utf8.encode text).length ∧
      ((Utf8.encode text).length = tag.length + 2 →
        0xc5 ∉ (Utf8.encode text).take tag.length) := by
  obtain ⟨letters, blanks, whole, cases, -⟩ := probe
  have enough := Utf8.length_le_length_flatMap letters
  rw [← cases.length_eq] at enough
  have closing : ['/', '>'].flatMap String.utf8EncodeChar = [0x2f, 0x3e] := rfl
  simp only [Utf8.encode_eq_flatMap, whole, List.append_assoc, List.flatMap_append, closing,
    List.length_append, List.length_cons, List.length_nil]
  refine ⟨by omega, fun shortest => ?_⟩
  have exact : (letters.flatMap String.utf8EncodeChar).length = tag.length := by omega
  rw [← exact, List.take_left]
  exact (length_flatMap_eq_iff (fun _ mem => mem) cases).mp exact

theorem Probe.head? (probe : Probe text) : (Utf8.encode text).head? = some 0x3c := by
  obtain ⟨letters, blanks, whole, cases, -⟩ := probe
  obtain ⟨first, letters, isCase, -, rfl⟩ := List.forall₂_cons_left_iff.mp cases
  obtain rfl : first = '<' := by
    rcases isCase with same | same | ⟨never, -⟩
    · exact same
    · exact same
    · cases never
  rw [Utf8.encode_eq_flatMap, whole]
  rfl

theorem mayBecomeProbe_of_append (may : mayBecomeProbe (part ++ later) = true) :
    mayBecomeProbe part = true := by
  simp only [mayBecomeProbe, Bool.and_eq_true, decide_eq_true_eq, beq_iff_eq, List.length_append]
    at may ⊢
  obtain ⟨short, same⟩ := may
  refine ⟨by omega, ?_⟩
  have front := congrArg (List.take part.length) same
  rw [← List.map_take, ← List.map_take, List.take_take, List.take_take,
    Nat.min_eq_left (Nat.le_add_right _ _), Nat.min_comm, ← List.take_take, List.take_left] at front
  exact front

end Parts

end PolicyProbe

namespace Reading

section Tags

variable {scheme text : String} {data part later : Octets}

theorem of_of_tagged (tagged : data.head? = some 0x3c) : of scheme data = ofTag data :=
  if_pos tagged

theorem ofTag_eq_policyProbe_iff :
    ofTag data = .policyProbe ↔ PolicyProbe.isProbe data = true := by
  unfold ofTag
  split
  · simp_all
  · split <;> simp_all

theorem ofTag_eq_invalid_iff : ofTag data = .invalid ↔
    PolicyProbe.isProbe data = false ∧ PolicyProbe.mayBecomeProbe data = false := by
  unfold ofTag
  split
  · simp_all
  · split <;> simp_all

/-- Octets that start with a probe are one, whatever follows them. -/
theorem ofTag_append_of_probe (read : ofTag data = .policyProbe) (more : Octets) :
    ofTag (data ++ more) = .policyProbe := by
  obtain ⟨text, rest, probe, rfl⟩ :=
    PolicyProbe.isProbe_iff.mp (ofTag_eq_policyProbe_iff.mp read)
  exact ofTag_eq_policyProbe_iff.mpr
    (PolicyProbe.isProbe_iff.mpr ⟨text, rest ++ more, probe, List.append_assoc _ _ _⟩)

/-- Octets that are invalid stay so exactly if no probe starts with them. -/
theorem ofTag_append_of_invalid_iff (read : ofTag data = .invalid) :
    (∀ more, ofTag (data ++ more) = .invalid) ↔
      ∀ text, PolicyProbe.Probe text → ¬ data <+: Utf8.encode text := by
  constructor
  · rintro kept text probe ⟨more, whole⟩
    have found := ofTag_eq_policyProbe_iff.mpr
      (PolicyProbe.isProbe_iff.mpr ⟨text, [], probe, whole.trans (List.append_nil _).symm⟩)
    rw [kept more] at found
    cases found
  · intro unlike more
    obtain ⟨unprobed, stuck⟩ := ofTag_eq_invalid_iff.mp read
    rw [ofTag_eq_invalid_iff, ← Bool.not_eq_true, ← Bool.not_eq_true]
    refine ⟨fun found => ?_, fun may => ?_⟩
    · obtain ⟨text, rest, probe, same⟩ := PolicyProbe.isProbe_iff.mp found
      rcases List.prefix_or_prefix_of_prefix (List.prefix_append data more)
        (same ▸ List.prefix_append (Utf8.encode text) rest) with leads | ⟨rest, rfl⟩
      · exact unlike text probe leads
      · rw [PolicyProbe.isProbe_iff.mpr ⟨text, rest, probe, rfl⟩] at unprobed
        cases unprobed
    · rw [PolicyProbe.mayBecomeProbe_of_append may] at stuck
      cases stuck

/-- Of a part of a probe nothing is decided yet as long as it is shorter than every probe and has
no octet of a long s, and it is invalid otherwise. -/
theorem ofTag_part (probe : PolicyProbe.Probe text) (cut : part ++ later = Utf8.encode text)
    (missing : later ≠ []) :
    ofTag part =
      if part.length < PolicyProbe.tag.length + 2 ∧ 0xc5 ∉ part.take PolicyProbe.tag.length then
        .incomplete
      else .invalid := by
  simp only [ofTag, probe.isProbe_part cut missing, probe.mayBecomeProbe_part cut]
  rfl

end Tags

end Reading

end Upgrade

end CashHerald
