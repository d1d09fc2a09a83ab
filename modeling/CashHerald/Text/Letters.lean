/-!
Letter case of ASCII letters; all other characters have none here. The core library's maps on
characters change ASCII letters only. Main statement: lowering the case
of a text keeps its length.
-/

namespace CashHerald.Letters

/-- The text with its ASCII letters in lower case. -/
def lower (text : List Char) : List Char :=
  text.map Char.toLower

/-- The text with its ASCII letters in lower case. -/
def lowerText (text : String) : String :=
  String.ofList (lower text.toList)

/-- Two texts are alike when they differ only in the case of ASCII letters. -/
def alike (first second : List Char) : Bool :=
  lower first == lower second

def hasLower (text : List Char) : Bool :=
  text.any Char.isLower

def hasUpper (text : List Char) : Bool :=
  text.any Char.isUpper

@[simp] theorem length_lower (text : List Char) : (lower text).length = text.length := by
  simp [lower]

end CashHerald.Letters
