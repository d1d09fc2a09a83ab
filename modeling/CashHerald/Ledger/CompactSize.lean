import CashHerald.Ledger.Cursor

/-!
The variable-length numbers that announce how much follows. A number below 253 is one octet; the
octets 253, 254 and 255 announce a little-endian field of two, four or eight octets. A reader
accepts every form that can hold a number, not only the shortest, and refuses a number that
promises more than is left to read.
-/

namespace CashHerald.Ledger.CompactSize

/-- The width of the field that a first octet announces, if it announces one. -/
def width? (first : UInt8) : Option Nat :=
  if first = 0xfd then some 2
  else if first = 0xfe then some 4
  else if first = 0xff then some 8
  else none

/-- The written forms of a number, of one, three, five and nine octets. -/
inductive Written (value : Nat) : Octets → Prop where
  | one (small : value < 253) : Written value [UInt8.ofNat value]
  | three (fits : value < UInt16.size) : Written value (0xfd :: Octets.littleEndian 2 value)
  | five (fits : value < UInt32.size) : Written value (0xfe :: Octets.littleEndian 4 value)
  | nine (fits : value < UInt64.size) : Written value (0xff :: Octets.littleEndian 8 value)

/-- A number in any of its forms. -/
def number : Decoder Nat := do
  let first ← Decoder.number 1
  match width? (UInt8.ofNat first) with
  | none => pure first
  | some width => Decoder.number width

/-- A number of octets to come, at most as many as are left. -/
def length : Decoder Nat := do
  let announced ← number
  let left ← Decoder.remaining
  if announced > left then throw (.lengthOverflow announced)
  pure announced

/-- A number of items to come, each of at least `smallest` octets. -/
def count (smallest : Nat) : Decoder Nat := do
  let announced ← number
  let left ← Decoder.remaining
  if announced > left / smallest then throw (.lengthOverflow announced)
  pure announced

/-- Octets behind their number. -/
def octets : Decoder Octets := do
  let announced ← length
  Decoder.take announced

/-- Items behind their number. -/
def list {Value : Type} (smallest : Nat) (item : Decoder Value) : Decoder (List Value) := do
  let announced ← count smallest
  Decoder.items item announced

end CashHerald.Ledger.CompactSize
