/-!
Cutting a text at a separator. Main statements: a text cut at its first separator is the two parts
around it, and the part before holds no separator; joining the lines of a text with line ends gives
the text back.
-/

namespace CashHerald.Pieces

/-- The parts around the first separator behind the characters read so far, the latest first. -/
def splitBehind? (separator : Char) (before : List Char) :
    List Char → Option (List Char × List Char)
  | [] => none
  | character :: rest =>
    if character = separator then some (before.reverse, rest)
    else splitBehind? separator (character :: before) rest

/-- The parts before and after the first occurrence of a separator. -/
def splitFirst? (separator : Char) (text : List Char) : Option (List Char × List Char) :=
  splitBehind? separator [] text

/-- The pieces of a text behind earlier pieces and the characters read of the current one, the
latest first. -/
def splitAllBehind (isSeparator : Char → Bool) (earlier : List (List Char)) (current : List Char) :
    List Char → List (List Char)
  | [] => (current.reverse :: earlier).reverse
  | character :: rest =>
    if isSeparator character then
      splitAllBehind isSeparator (current.reverse :: earlier) [] rest
    else splitAllBehind isSeparator earlier (character :: current) rest

/-- The pieces between separators, where a character is a separator or not. -/
def splitAll (isSeparator : Char → Bool) (text : List Char) : List (List Char) :=
  splitAllBehind isSeparator [] [] text

/-- The lines of a text behind earlier lines and the characters read of the current one, the
latest first. -/
def linesBehind (earlier : List (List Char)) (current : List Char) : List Char → List (List Char)
  | [] => (current.reverse :: earlier).reverse
  | '\r' :: '\n' :: rest => linesBehind (current.reverse :: earlier) [] rest
  | character :: rest => linesBehind earlier (character :: current) rest

/-- The lines of a text, which a carriage return and a line feed separate. -/
def lines (text : List Char) : List (List Char) :=
  linesBehind [] [] text

/-- Joins lines with a carriage return and a line feed. -/
def joinLines : List (List Char) → List Char
  | [] => []
  | [line] => line
  | line :: second :: rest => line ++ '\r' :: '\n' :: joinLines (second :: rest)

theorem splitBehind?_eq_some_iff {separator : Char} {before text front back : List Char} :
    splitBehind? separator before text = some (front, back) ↔
      ∃ middle, front = before.reverse ++ middle ∧ text = middle ++ separator :: back ∧
        separator ∉ middle := by
  induction text generalizing before with
  | nil => simp [splitBehind?]
  | cons character rest inductionHypothesis =>
    rw [splitBehind?]
    split
    · rename_i isSeparator
      subst isSeparator
      constructor
      · intro found
        cases found
        exact ⟨[], by simp, by simp, by simp⟩
      · rintro ⟨middle, rfl, whole, absent⟩
        cases middle with
        | nil => simp_all
        | cons head tail => simp_all
    · rename_i differs
      rw [inductionHypothesis]
      constructor
      · rintro ⟨middle, rfl, rfl, absent⟩
        exact ⟨character :: middle, by simp, by simp, by simp [absent, Ne.symm differs]⟩
      · rintro ⟨middle, rfl, whole, absent⟩
        cases middle with
        | nil => simp_all
        | cons head tail =>
          simp only [List.cons_append, List.cons.injEq] at whole
          obtain ⟨rfl, rfl⟩ := whole
          exact ⟨tail, by simp, rfl, fun member => absent (List.mem_cons_of_mem _ member)⟩

/-- A text is cut exactly into the parts around its first separator. -/
theorem splitFirst?_eq_some_iff {separator : Char} {text front back : List Char} :
    splitFirst? separator text = some (front, back) ↔
      text = front ++ separator :: back ∧ separator ∉ front := by
  rw [splitFirst?, splitBehind?_eq_some_iff]
  constructor
  · rintro ⟨middle, rfl, rfl, absent⟩
    exact ⟨rfl, absent⟩
  · rintro ⟨whole, absent⟩
    exact ⟨front, rfl, whole, absent⟩

theorem splitFirst?_eq_none_iff {separator : Char} {text : List Char} :
    splitFirst? separator text = none ↔ separator ∉ text := by
  have general : ∀ before, splitBehind? separator before text = none ↔ separator ∉ text := by
    induction text with
    | nil => simp [splitBehind?]
    | cons character rest inductionHypothesis =>
      intro before
      rw [splitBehind?]
      split
      · rename_i isSeparator
        simp [isSeparator]
      · rename_i differs
        simp [inductionHypothesis, Ne.symm differs]
  exact general []

/-- Joining more lines behind a first part puts one line end between. -/
theorem joinLines_append {front back : List (List Char)} (first : front ≠ []) (second : back ≠ []) :
    joinLines (front ++ back) = joinLines front ++ '\r' :: '\n' :: joinLines back := by
  induction front with
  | nil => exact absurd rfl first
  | cons line rest inductionHypothesis =>
    cases rest with
    | nil =>
      cases back with
      | nil => exact absurd rfl second
      | cons next others => simp [joinLines]
    | cons next others =>
      have later := inductionHypothesis (by simp)
      simp only [List.cons_append] at later ⊢
      simp [joinLines, later]

/-- Joining the lines of a text gives the text back. -/
theorem joinLines_linesBehind (earlier : List (List Char)) (current text : List Char) :
    joinLines (linesBehind earlier current text) =
      joinLines (earlier.reverse ++ [current.reverse ++ text]) := by
  fun_induction linesBehind earlier current text with
  | case1 earlier current => simp
  | case2 earlier current rest inductionHypothesis =>
    rw [inductionHypothesis]
    cases earlier with
    | nil => simp [joinLines]
    | cons line others =>
      rw [joinLines_append (by simp) (by simp), joinLines_append (by simp) (by simp),
        List.reverse_cons, joinLines_append (by simp) (by simp)]
      simp [joinLines]
  | case3 earlier current character rest _ inductionHypothesis =>
    rw [inductionHypothesis]
    simp

theorem joinLines_lines (text : List Char) : joinLines (lines text) = text := by
  simpa [lines, joinLines] using joinLines_linesBehind [] [] text

end CashHerald.Pieces
