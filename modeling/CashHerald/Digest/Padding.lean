import CashHerald.Octets.Basic

/-!
The frame shared by the hash functions: a message is padded to whole blocks of 64 octets, which
are absorbed into a state one after the other. Main statement: a padded message is a whole number
of blocks.
-/

namespace CashHerald.Digest

/-- The count of zero octets that completes the last block. -/
def zeroCount (size : Nat) : Nat :=
  (119 - size % 64) % 64

/-- The message, the octet 128, zeros, and the eight octets of the bit length. -/
def pad (bitLength : Nat → Octets) (message : Octets) : Octets :=
  message ++ 0x80 :: (List.replicate (zeroCount message.length) 0 ++ bitLength (8 * message.length))

/-- Absorbs blocks of 64 octets from left to right. -/
def absorb {State : Type} (compress : State → Octets → State) (state : State) :
    Octets → State
  | [] => state
  | byte :: rest =>
    absorb compress (compress state ((byte :: rest).take 64)) ((byte :: rest).drop 64)
termination_by bytes => bytes.length
decreasing_by
  rw [List.length_drop, List.length_cons]
  omega

/-- Groups octets into 32-bit words with a reader of four octets. -/
def words (read : Octets → Nat) : Octets → List UInt32
  | first :: second :: third :: fourth :: rest =>
    UInt32.ofNat (read [first, second, third, fourth]) :: words read rest
  | _ => []

/-- Rotates a word to the left. -/
def rotateLeft (word : UInt32) (amount : UInt32) : UInt32 :=
  (word <<< amount) ||| (word >>> (32 - amount))

/-- Rotates a word to the right. -/
def rotateRight (word : UInt32) (amount : UInt32) : UInt32 :=
  (word >>> amount) ||| (word <<< (32 - amount))

/-- A padded message is a whole number of blocks. -/
theorem length_pad_mod (bitLength : Nat → Octets) (message : Octets)
    (width : (bitLength (8 * message.length)).length = 8) :
    (pad bitLength message).length % 64 = 0 := by
  simp only [pad, List.length_append, List.length_cons, List.length_replicate, width, zeroCount]
  omega

end CashHerald.Digest
