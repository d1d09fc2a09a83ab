import CashHerald.Octets.Basic

/-!
Reading ledger data from its octets. A cursor knows its offset from the start and how much is left.
Main statement: a field is taken exactly when enough octets are left, and the cursor then stands
behind it.
-/

namespace CashHerald.Ledger

/-- A decoding error names what is missing, left over or announced in excess. -/
inductive DecodeError where
  | unexpectedEnd (offset needed : Nat)
  | trailingOctets (count : Nat)
  | lengthOverflow (length : Nat)
  deriving DecidableEq, Repr

/-- The text of a decoding error. -/
def DecodeError.message : DecodeError → String
  | .unexpectedEnd offset needed =>
    s!"unexpected end of data: needed {needed} bytes at offset {offset}"
  | .trailingOctets count => s!"{count} trailing bytes after transaction"
  | .lengthOverflow length => s!"length {length} exceeds remaining data"

/-- A cursor stands at an offset and holds the octets from there on. -/
structure Cursor where
  position : Nat
  rest : Octets
  remaining : Nat
  remaining_eq : remaining = rest.length
  deriving DecidableEq

/-- A decoder reads a value at a cursor and returns the cursor behind it. -/
abbrev Decoder (Value : Type) := StateT Cursor (Except DecodeError) Value

namespace Cursor

/-- The cursor at the start of the octets. -/
def start (raw : Octets) : Cursor :=
  ⟨0, raw, raw.length, rfl⟩

/-- The cursor `count` octets further on. -/
def advance (cursor : Cursor) (count : Nat) : Cursor :=
  ⟨cursor.position + count, cursor.rest.drop count, cursor.remaining - count,
    by rw [cursor.remaining_eq, List.length_drop]⟩

/-- The octets between a cursor and a later one. -/
def segment (first last : Cursor) : Octets :=
  first.rest.take (last.position - first.position)

end Cursor

namespace Decoder

/-- The next `count` octets. -/
def take (count : Nat) : Decoder Octets := fun cursor =>
  if cursor.remaining < count then .error (.unexpectedEnd cursor.position count)
  else .ok (cursor.rest.take count, cursor.advance count)

/-- The number in the next `width` octets, the least significant first. -/
def number (width : Nat) : Decoder Nat := do
  let field ← take width
  pure (Octets.ofLittleEndian field)

/-- A 32-bit word. -/
def word32 : Decoder UInt32 := do
  let value ← number 4
  pure (UInt32.ofNat value)

/-- A 64-bit word. -/
def word64 : Decoder UInt64 := do
  let value ← number 8
  pure (UInt64.ofNat value)

/-- The number of octets left. -/
def remaining : Decoder Nat := do
  let cursor ← get
  pure cursor.remaining

/-- Reads `count` items and puts them behind the items read earlier, the latest first. -/
def itemsBehind {Value : Type} (item : Decoder Value) :
    Nat → List Value → Decoder (List Value)
  | 0, earlier, cursor => .ok (earlier.reverse, cursor)
  | count + 1, earlier, cursor =>
    match item cursor with
    | .error reason => .error reason
    | .ok (value, next) => itemsBehind item count (value :: earlier) next

/-- Reads `count` items in order. -/
def items {Value : Type} (item : Decoder Value) (count : Nat) : Decoder (List Value) :=
  itemsBehind item count []

/-- A field is taken exactly when enough octets are left. -/
theorem take_eq_ok_iff {count : Nat} {cursor next : Cursor} {field : Octets} :
    take count cursor = .ok (field, next) ↔
      count ≤ cursor.rest.length ∧ field = cursor.rest.take count ∧
        next = cursor.advance count := by
  rw [take, cursor.remaining_eq]
  split
  · constructor
    · intro impossible
      cases impossible
    · rintro ⟨enough, -, -⟩
      omega
  · rename_i enough
    constructor
    · intro taken
      cases taken
      exact ⟨by omega, rfl, rfl⟩
    · rintro ⟨-, rfl, rfl⟩
      rfl

/-- The first item is read where the cursor stands, and the others behind it. -/
theorem itemsBehind_eq {Value : Type} (item : Decoder Value) (count : Nat)
    (earlier : List Value) (cursor : Cursor) :
    itemsBehind item count earlier cursor =
      (items item count cursor).map fun result => (earlier.reverse ++ result.1, result.2) := by
  unfold items
  induction count generalizing earlier cursor with
  | zero => simp [itemsBehind, Except.map]
  | succ count inductionHypothesis =>
    simp only [itemsBehind]
    split
    · rfl
    · rename_i value next found
      rw [inductionHypothesis (value :: earlier), inductionHypothesis [value]]
      cases itemsBehind item count [] next <;> simp [Except.map]

end Decoder

end CashHerald.Ledger
