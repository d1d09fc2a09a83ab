/-!
Octet strings and the numbers written in them. Main statements: a number written in a field of
`width` octets has that length, and reading the field returns the number modulo `256 ^ width`.
-/

namespace CashHerald

/-- Powers of numbers are those of the core library, whatever else is imported. -/
instance (priority := high) powNat : Pow Nat Nat := instPowNat

/-- An octet string is a finite list of bytes. -/
abbrev Octets := List UInt8

namespace Octets

/-- The number whose base-256 digits are the octets, least significant first. -/
def ofLittleEndian : Octets → Nat
  | [] => 0
  | byte :: rest => byte.toNat + 256 * ofLittleEndian rest

/-- The number whose base-256 digits are the octets, most significant first. -/
def ofBigEndian (bytes : Octets) : Nat :=
  bytes.foldl (fun value byte => value * 256 + byte.toNat) 0

/-- The lowest `width` base-256 digits of a number, least significant first. -/
def littleEndian : Nat → Nat → Octets
  | 0, _ => []
  | width + 1, value => UInt8.ofNat value :: littleEndian width (value / 256)

/-- The lowest `width` base-256 digits of a number, most significant first. -/
def bigEndian (width value : Nat) : Octets :=
  (littleEndian width value).reverse

/-- The first `count` octets and the rest, if there are that many. -/
def splitExactly? (count : Nat) (bytes : Octets) : Option (Octets × Octets) :=
  let front := bytes.take count
  if front.length = count then some (front, bytes.drop count) else none

/-- One of two octet strings starts with the other. -/
def eitherLeads (first second : Octets) : Bool :=
  first.isPrefixOf second || second.isPrefixOf first

@[simp] theorem length_littleEndian (width value : Nat) :
    (littleEndian width value).length = width := by
  induction width generalizing value with
  | zero => rfl
  | succ width inductionHypothesis => simp [littleEndian, inductionHypothesis]

@[simp] theorem length_bigEndian (width value : Nat) :
    (bigEndian width value).length = width := by
  simp [bigEndian]

/-- Reading a little-endian field returns the number modulo the field's range. -/
theorem ofLittleEndian_littleEndian (width value : Nat) :
    ofLittleEndian (littleEndian width value) = value % 256 ^ width := by
  induction width generalizing value with
  | zero => simp [littleEndian, ofLittleEndian, Nat.mod_one]
  | succ width inductionHypothesis =>
    rw [littleEndian, ofLittleEndian, inductionHypothesis, Nat.pow_succ', Nat.mod_mul]
    simp

theorem ofLittleEndian_lt (bytes : Octets) : ofLittleEndian bytes < 256 ^ bytes.length := by
  induction bytes with
  | nil => simp [ofLittleEndian]
  | cons byte rest inductionHypothesis =>
    have bound := byte.toNat_lt
    simp only [ofLittleEndian, List.length_cons, Nat.pow_succ]
    omega

/-- Writing back the number of a little-endian field gives the field. -/
theorem littleEndian_ofLittleEndian (bytes : Octets) :
    littleEndian bytes.length (ofLittleEndian bytes) = bytes := by
  induction bytes with
  | nil => rfl
  | cons byte rest inductionHypothesis =>
    have bound := byte.toNat_lt
    have high : (byte.toNat + 256 * ofLittleEndian rest) / 256 = ofLittleEndian rest := by omega
    have low : UInt8.ofNat (byte.toNat + 256 * ofLittleEndian rest) = byte := by
      apply UInt8.toNat_inj.mp
      simp only [UInt8.toNat_ofNat']
      omega
    simp only [ofLittleEndian, List.length_cons, littleEndian, high, low, inductionHypothesis]

/-- The field of a number is the one that its number is read from. -/
theorem eq_littleEndian_iff {width value : Nat} {field : Octets} :
    value < 256 ^ width ∧ field = littleEndian width value ↔
      field.length = width ∧ value = ofLittleEndian field := by
  constructor
  · intro written
    obtain ⟨fits, rfl⟩ := written
    rw [length_littleEndian, ofLittleEndian_littleEndian, Nat.mod_eq_of_lt fits]
    exact ⟨rfl, rfl⟩
  · intro read
    obtain ⟨rfl, rfl⟩ := read
    exact ⟨ofLittleEndian_lt field, (littleEndian_ofLittleEndian field).symm⟩

/-- The two orders are reversals of each other. -/
theorem ofBigEndian_reverse (bytes : Octets) :
    ofBigEndian bytes.reverse = ofLittleEndian bytes := by
  induction bytes with
  | nil => rfl
  | cons byte rest inductionHypothesis =>
    have step : ofBigEndian (rest.reverse ++ [byte])
        = ofBigEndian rest.reverse * 256 + byte.toNat := by
      simp [ofBigEndian]
    rw [List.reverse_cons, step, inductionHypothesis, ofLittleEndian]
    omega

/-- Reading a big-endian field returns the number modulo the field's range. -/
theorem ofBigEndian_bigEndian (width value : Nat) :
    ofBigEndian (bigEndian width value) = value % 256 ^ width := by
  rw [bigEndian, ofBigEndian_reverse, ofLittleEndian_littleEndian]

/-- A split succeeds exactly on a concatenation whose first part has the asked length. -/
theorem splitExactly?_eq_some_iff {count : Nat} {bytes front rest : Octets} :
    splitExactly? count bytes = some (front, rest) ↔
      bytes = front ++ rest ∧ front.length = count := by
  simp only [splitExactly?, Option.ite_none_right_eq_some, Option.some.injEq, Prod.mk.injEq]
  constructor
  · rintro ⟨enough, rfl, rfl⟩
    exact ⟨(List.take_append_drop count bytes).symm, enough⟩
  · rintro ⟨rfl, rfl⟩
    simp

/-- A split fails exactly when too few octets are left. -/
theorem splitExactly?_eq_none_iff {count : Nat} {bytes : Octets} :
    splitExactly? count bytes = none ↔ bytes.length < count := by
  simp only [splitExactly?, List.length_take]
  split <;> simp <;> omega

/-- A split that succeeds is not changed by octets behind it. -/
theorem splitExactly?_append {count : Nat} {bytes front rest : Octets}
    (split : splitExactly? count bytes = some (front, rest)) (more : Octets) :
    splitExactly? count (bytes ++ more) = some (front, rest ++ more) := by
  obtain ⟨rfl, exact⟩ := splitExactly?_eq_some_iff.mp split
  rw [splitExactly?_eq_some_iff]
  exact ⟨List.append_assoc front rest more, exact⟩

end Octets

end CashHerald
