import CashHerald.Text.Blank
import CashHerald.Text.Pieces
import Mathlib.Data.List.Infix
import Mathlib.Data.List.TakeWhile

/-!
Texts cut into lines, and freed from the blanks around them. Main statements: the lines of a text
are the one way to join texts without a line end to it, and a trimmed text is what stands between
the blanks.
-/

namespace CashHerald

namespace Pieces

/-- What stands between two lines. -/
def lineEnd : List Char :=
  ['\r', '\n']

/-- The lines of a text: joined they are the text, and none of them holds a line end. -/
structure Lined (text : List Char) (lines : List (List Char)) : Prop where
  nonempty : lines ≠ []
  joined : joinLines lines = text
  unbroken : ∀ line ∈ lines, ¬ lineEnd <:+: line

section Lines

variable {line rest text : List Char} {lines : List (List Char)}

/-- A character that does not start a line end belongs to the current line. -/
theorem linesBehind_cons {character : Char} (inside : ¬ lineEnd <+: character :: rest)
    (earlier : List (List Char)) (current : List Char) :
    linesBehind earlier current (character :: rest) =
      linesBehind earlier (character :: current) rest := by
  rw [linesBehind]
  rintro later rfl rfl
  exact inside ⟨later, rfl⟩

theorem linesBehind_unbroken (unbroken : ¬ lineEnd <:+: line) (earlier : List (List Char))
    (current : List Char) :
    linesBehind earlier current line = earlier.reverse ++ [current.reverse ++ line] := by
  induction line generalizing current with
  | nil => simp [linesBehind]
  | cons character line inductionHypothesis =>
    obtain ⟨inside, later⟩ := not_or.mp (mt List.infix_cons_iff.mpr unbroken)
    rw [linesBehind_cons inside, inductionHypothesis later]
    simp

/-- A line goes up to its end. -/
theorem linesBehind_line (unbroken : ¬ lineEnd <:+: line) (earlier : List (List Char))
    (current : List Char) :
    linesBehind earlier current (line ++ lineEnd ++ rest) =
      linesBehind ((current.reverse ++ line) :: earlier) [] rest := by
  induction line generalizing current with
  | nil => simp [lineEnd, linesBehind]
  | cons character line inductionHypothesis =>
    obtain ⟨inside, later⟩ := not_or.mp (mt List.infix_cons_iff.mpr unbroken)
    have still : ¬ lineEnd <+: character :: (line ++ lineEnd ++ rest) := by
      rintro ⟨behind, same⟩
      cases line with
      | nil => simp [lineEnd] at same
      | cons next line =>
        simp only [lineEnd, List.cons_append, List.nil_append, List.cons.injEq] at same
        obtain ⟨rfl, rfl, -⟩ := same
        exact inside ⟨line, rfl⟩
    rw [List.cons_append, List.cons_append, linesBehind_cons still, inductionHypothesis later]
    simp

theorem Lined.linesBehind (lined : Lined text lines) (earlier : List (List Char)) :
    linesBehind earlier [] text = earlier.reverse ++ lines := by
  obtain ⟨nonempty, rfl, unbroken⟩ := lined
  induction lines generalizing earlier with
  | nil => exact absurd rfl nonempty
  | cons line lines inductionHypothesis =>
    have whole := unbroken line List.mem_cons_self
    cases lines with
    | nil => exact linesBehind_unbroken whole earlier []
    | cons next lines =>
      have joined : joinLines (line :: next :: lines) =
          line ++ lineEnd ++ joinLines (next :: lines) := by
        simp [joinLines, lineEnd]
      have others : ∀ line ∈ next :: lines, ¬ lineEnd <:+: line := fun line mem =>
        unbroken line (List.mem_cons_of_mem _ mem)
      rw [joined, linesBehind_line whole,
        inductionHypothesis _ (List.cons_ne_nil next lines) others]
      simp

theorem joinLines_cons (character : Char) (line : List Char) (lines : List (List Char)) :
    joinLines ((character :: line) :: lines) = character :: joinLines (line :: lines) := by
  cases lines <;> rfl

/-- Every text has lines. -/
theorem exists_lined (text : List Char) : ∃ lines, Lined text lines := by
  induction text with
  | nil => exact ⟨[[]], by simp, rfl, by simp [lineEnd]⟩
  | cons character text inductionHypothesis =>
    obtain ⟨lines, nonempty, rfl, unbroken⟩ := inductionHypothesis
    obtain ⟨first, lines, rfl⟩ := List.exists_cons_of_ne_nil nonempty
    by_cases ends : lineEnd <+: character :: first
    · -- The character and the first one of the line end a line without characters.
      obtain ⟨later, same⟩ := ends
      simp only [lineEnd, List.cons_append, List.nil_append, List.cons.injEq] at same
      obtain ⟨rfl, rfl⟩ := same
      refine ⟨[] :: later :: lines, by simp, ?_, ?_⟩
      · rw [joinLines_cons]
        rfl
      · intro line mem
        rcases List.mem_cons.mp mem with rfl | mem
        · simp [lineEnd]
        rcases List.mem_cons.mp mem with rfl | mem
        · exact fun broken => unbroken _ List.mem_cons_self
            (broken.trans (List.suffix_cons _ _).isInfix)
        · exact unbroken line (List.mem_cons_of_mem _ mem)
    · refine ⟨(character :: first) :: lines, by simp, joinLines_cons _ _ _, ?_⟩
      intro line mem
      rcases List.mem_cons.mp mem with rfl | mem
      · exact fun broken => (List.infix_cons_iff.mp broken).elim ends
          (unbroken first List.mem_cons_self)
      · exact unbroken line (List.mem_cons_of_mem _ mem)

/-- The lines of a text are the one way to join texts without a line end to it. -/
theorem lines_eq_iff : Pieces.lines text = lines ↔ Lined text lines := by
  constructor
  · rintro rfl
    obtain ⟨lines, lined⟩ := exists_lined text
    have same : Pieces.lines text = lines := lined.linesBehind []
    exact same ▸ lined
  · intro lined
    exact lined.linesBehind []

/-- Parts without a line end make none where they join, if the first one does not end like a line
end starts or the second one does not start like a line end ends. -/
theorem unbroken_append {front back : List Char} (first : ¬ lineEnd <:+: front)
    (second : ¬ lineEnd <:+: back)
    (apart : front.getLast? ≠ some '\r' ∨ back.head? ≠ some '\n') :
    ¬ lineEnd <:+: front ++ back := by
  rw [List.infix_append_iff]
  rintro (broken | broken | ⟨start, rest, same, ends, leads⟩)
  · exact first broken
  · exact second broken
  · obtain ⟨before, rfl⟩ := ends
    obtain ⟨behind, rfl⟩ := leads
    rcases start with _ | ⟨character, _ | ⟨next, start⟩⟩
    · exact second (same ▸ (List.prefix_append rest behind).isInfix)
    · obtain ⟨rfl, rfl⟩ := List.cons.inj same
      simp at apart
    · have length := congrArg List.length same
      obtain ⟨-, rfl⟩ : start = [] ∧ rest = [] := by simpa [lineEnd] using length
      rw [List.append_nil] at same
      exact first (same ▸ (List.suffix_append before _).isInfix)

theorem Lined.append {front back : List Char} {before behind : List (List Char)}
    (first : Lined front before) (second : Lined back behind) :
    Lined (front ++ lineEnd ++ back) (before ++ behind) := by
  refine ⟨List.append_ne_nil_of_left_ne_nil first.nonempty behind, ?_, ?_⟩
  · rw [joinLines_append first.nonempty second.nonempty, first.joined, second.joined]
    simp [lineEnd]
  · exact List.forall_mem_append.mpr ⟨first.unbroken, second.unbroken⟩

/-- A text with two line ends in a row has a line without characters. -/
theorem Lined.nil_mem (lined : Lined text lines) (blank : lineEnd ++ lineEnd <:+: text) :
    [] ∈ lines := by
  obtain ⟨front, back, rfl⟩ := blank
  obtain ⟨before, firstLined⟩ := exists_lined front
  obtain ⟨behind, lastLined⟩ := exists_lined back
  have empty : Lined [] [[]] := ⟨by simp, rfl, by simp [lineEnd]⟩
  have whole := (firstLined.append empty).append lastLined
  rw [List.append_nil, List.append_assoc front] at whole
  rw [← lines_eq_iff.mpr lined, lines_eq_iff.mpr whole]
  simp

/-- A piece stands in the text that it is cut from. -/
theorem infix_of_mem_splitAll {isSeparator : Char → Bool} {piece : List Char}
    (mem : piece ∈ splitAll isSeparator text) : piece <:+: text := by
  have general : ∀ earlier current, piece ∈ splitAllBehind isSeparator earlier current text →
      piece ∈ earlier ∨ piece <:+: current.reverse ++ text := by
    clear mem
    induction text with
    | nil =>
      intro earlier current mem
      simp only [splitAllBehind, List.mem_reverse, List.mem_cons] at mem
      rcases mem with rfl | mem
      · exact .inr (List.prefix_append _ _).isInfix
      · exact .inl mem
    | cons character text inductionHypothesis =>
      intro earlier current mem
      rw [splitAllBehind] at mem
      split at mem
      · rcases inductionHypothesis _ _ mem with mem | inside
        · rcases List.mem_cons.mp mem with rfl | mem
          · exact .inr (List.prefix_append _ _).isInfix
          · exact .inl mem
        · refine .inr (inside.trans ?_)
          exact ⟨current.reverse ++ [character], [], by simp⟩
      · rcases inductionHypothesis _ _ mem with mem | inside
        · exact .inl mem
        · exact .inr (by simpa using inside)
  exact (general [] [] mem).resolve_left List.not_mem_nil

end Lines

end Pieces

namespace Blank

/-- A text without the blanks around it. -/
structure Trimmed (text inner : List Char) : Prop where
  between : ∃ left right, text = left ++ inner ++ right ∧
    (∀ character ∈ left, isBlank character = true) ∧
    ∀ character ∈ right, isBlank character = true
  first : inner.head?.all (!isBlank ·) = true
  last : inner.getLast?.all (!isBlank ·) = true

section Trimming

variable {text inner : List Char}

theorem trimStart_append {left : List Char} (blank : ∀ character ∈ left, isBlank character = true)
    (right : List Char) : trimStart (left ++ right) = trimStart right :=
  List.dropWhile_append_of_pos blank

theorem trimStart_eq_self (first : text.head?.all (!isBlank ·) = true) : trimStart text = text := by
  cases text with
  | nil => rfl
  | cons character rest =>
    have visible : isBlank character = false := by simpa using first
    simp [trimStart, visible]

theorem Trimmed.trim_eq (trimmed : Trimmed text inner) : trim text = inner := by
  obtain ⟨⟨left, right, rfl, blankLeft, blankRight⟩, first, last⟩ := trimmed
  have blankReverse : ∀ character ∈ right.reverse, isBlank character = true := by
    simpa using blankRight
  rw [trim, List.append_assoc, trimStart_append blankLeft]
  cases inner with
  | nil =>
    have nothing : trimStart right = [] := List.dropWhile_eq_nil_iff.mpr blankRight
    rw [List.nil_append, nothing]
    rfl
  | cons character rest =>
    have start : trimStart (character :: rest ++ right) = character :: rest ++ right :=
      trimStart_eq_self first
    have back : (character :: rest).reverse.head?.all (!isBlank ·) = true := by
      rwa [List.head?_reverse]
    rw [start, List.reverse_append, trimStart_append blankReverse, trimStart_eq_self back,
      List.reverse_reverse]

theorem head?_trimStart (text : List Char) :
    (trimStart text).head?.all (!isBlank ·) = true := by
  have visible := List.head?_dropWhile_not isBlank text
  rw [trimStart]
  cases first : (text.dropWhile isBlank).head? with
  | none => rfl
  | some character => simpa [first] using visible

theorem trimmed_trim (text : List Char) : Trimmed text (trim text) := by
  have cut : trimStart text =
      trim text ++ ((trimStart text).reverse.takeWhile isBlank).reverse := by
    have whole : (trimStart text).reverse.takeWhile isBlank ++ trimStart (trimStart text).reverse =
        (trimStart text).reverse := List.takeWhile_append_dropWhile
    rw [trim, ← List.reverse_append, whole, List.reverse_reverse]
  refine ⟨⟨text.takeWhile isBlank, ((trimStart text).reverse.takeWhile isBlank).reverse, ?_,
    fun _ => List.mem_takeWhile_imp, ?_⟩, ?_, ?_⟩
  · rw [List.append_assoc, ← cut]
    exact List.takeWhile_append_dropWhile.symm
  · intro character mem
    exact List.mem_takeWhile_imp (List.mem_reverse.mp mem)
  · have visible := head?_trimStart text
    rw [cut] at visible
    cases start : trim text with
    | nil => rfl
    | cons character rest => rwa [start] at visible
  · rw [trim, List.getLast?_reverse]
    exact head?_trimStart _

/-- Trimming a text leaves what stands between the blanks. -/
theorem trim_eq_iff : trim text = inner ↔ Trimmed text inner := by
  constructor
  · rintro rfl
    exact trimmed_trim text
  · exact Trimmed.trim_eq

theorem trim_eq_nil_iff : trim text = [] ↔ ∀ character ∈ text, isBlank character = true := by
  rw [trim_eq_iff]
  constructor
  · rintro ⟨⟨left, right, rfl, blankLeft, blankRight⟩, -, -⟩ character mem
    rw [List.append_nil, List.mem_append] at mem
    exact mem.elim (blankLeft character) (blankRight character)
  · intro blank
    exact ⟨⟨text, [], by simp, blank, by simp⟩, rfl, rfl⟩

end Trimming

end Blank

end CashHerald
