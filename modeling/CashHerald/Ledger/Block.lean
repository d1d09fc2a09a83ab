import CashHerald.Ledger.Transaction

/-!
Blocks and their wire format: a header of 80 octets, whose double hash names the block, and the
transactions behind their count. Octets behind the last transaction are ignored.
-/

namespace CashHerald.Ledger

structure Header where
  version : UInt32
  previousHash : Octets
  merkleRoot : Octets
  time : UInt32
  bits : UInt32
  nonce : UInt32
  deriving DecidableEq, Repr

structure Block where
  hash : Octets
  header : Header
  transactions : List Transaction
  deriving DecidableEq, Repr

namespace Header

def size : Nat := 80

/-- The 32-bit word at an offset of the header's octets. -/
def wordAt (octets : Octets) (offset : Nat) : UInt32 :=
  UInt32.ofNat (Octets.ofLittleEndian ((octets.drop offset).take 4))

/-- The fields at their offsets. -/
def ofOctets (octets : Octets) : Header :=
  ⟨wordAt octets 0, (octets.drop 4).take 32, (octets.drop 36).take 32,
    wordAt octets 68, wordAt octets 72, wordAt octets 76⟩

end Header

namespace Block

def decoder : Decoder Block := do
  let header ← Decoder.take Header.size
  let transactions ← CompactSize.list Transaction.smallest Transaction.decoder
  pure ⟨Sha256.double header, Header.ofOctets header, transactions⟩

/-- Reads the block that the octets start with. -/
def decode (raw : Octets) : Except DecodeError Block := do
  let (block, _) ← decoder (Cursor.start raw)
  pure block

end Block

end CashHerald.Ledger
