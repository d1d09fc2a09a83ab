import CashHerald.Octets.Basic

/-!
Text as octets in UTF-8. Main statement: reading accepts exactly what writing produces.
-/

namespace CashHerald.Utf8

/-- The UTF-8 octets of a text. -/
def encode (text : String) : Octets :=
  text.toByteArray.data.toList

/-- The text that the octets write in UTF-8, if they do. -/
def decode? (bytes : Octets) : Option String :=
  String.fromUTF8? bytes.toByteArray

theorem toByteArray_encode (text : String) : (encode text).toByteArray = text.toByteArray := by
  apply ByteArray.ext
  simp [encode, List.data_toByteArray]

/-- Reading accepts exactly what writing produces. -/
theorem decode?_eq_some_iff {bytes : Octets} {text : String} :
    decode? bytes = some text ↔ bytes = encode text := by
  constructor
  · intro read
    simp only [decode?, String.fromUTF8?] at read
    split at read
    · cases read
      simp [encode, String.fromUTF8, List.data_toByteArray]
    · cases read
  · rintro rfl
    have valid : (encode text).toByteArray.IsValidUTF8 := by
      rw [toByteArray_encode]
      exact text.isValidUTF8
    simp only [decode?, String.fromUTF8?, valid, dite_true, Option.some.injEq]
    apply String.toByteArray_inj.mp
    exact toByteArray_encode text

@[simp] theorem encode_append (first second : String) :
    encode (first ++ second) = encode first ++ encode second := by
  simp [encode]

end CashHerald.Utf8
