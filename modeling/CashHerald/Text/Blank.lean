/-!
White space as the Unicode property of that name gives it, and trimming. Main statement: a text
without blanks at its ends is left as it is.
-/

namespace CashHerald.Blank

/-- The characters with the Unicode property White_Space. -/
def characters : List Char :=
  ['\u0009', '\u000a', '\u000b', '\u000c', '\u000d', '\u0020', '\u0085', '\u00a0', '\u1680',
    '\u2000', '\u2001', '\u2002', '\u2003', '\u2004', '\u2005', '\u2006', '\u2007', '\u2008',
    '\u2009', '\u200a', '\u2028', '\u2029', '\u202f', '\u205f', '\u3000']

def isBlank (character : Char) : Bool :=
  characters.contains character

/-- The text without the blanks it starts with. -/
def trimStart (text : List Char) : List Char :=
  text.dropWhile isBlank

/-- The text without the blanks it starts or ends with. -/
def trim (text : List Char) : List Char :=
  (trimStart (trimStart text).reverse).reverse

/-- Trimming keeps a text that neither starts nor ends with a blank. -/
theorem trim_eq_self {text : List Char} (first : text.head?.all (!isBlank ·))
    (last : text.getLast?.all (!isBlank ·)) : trim text = text := by
  have keep : ∀ characters : List Char, characters.head?.all (!isBlank ·) →
      trimStart characters = characters := by
    intro characters starts
    cases characters with
    | nil => rfl
    | cons head tail =>
      have visible : isBlank head = false := by simpa using starts
      simp [trimStart, visible]
  rw [trim, keep text first, keep text.reverse (by simpa [List.head?_reverse] using last)]
  simp

end CashHerald.Blank
