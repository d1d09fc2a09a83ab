import CashHerald.Digest.Padding

/-!
The SHA-1 hash function, which answers the key of the upgrade handshake. Main statement: a digest
has 20 octets.
-/

namespace CashHerald.Sha1

open Digest

/-- The chaining state has five words. -/
structure State where
  a : UInt32
  b : UInt32
  c : UInt32
  d : UInt32
  e : UInt32
  deriving DecidableEq, Repr

def initial : State :=
  ⟨0x67452301, 0xefcdab89, 0x98badcfe, 0x10325476, 0xc3d2e1f0⟩

/-- Extends sixteen message words to eighty. -/
def schedule (block : Octets) : Array UInt32 :=
  (List.range 64).foldl (fun earlier index =>
    earlier.push (rotateLeft (earlier.getD (index + 13) 0 ^^^ earlier.getD (index + 8) 0 ^^^
      earlier.getD (index + 2) 0 ^^^ earlier.getD index 0) 1))
    (words Octets.ofBigEndian block).toArray

/-- The mixing function and the constant of a step depend on its quarter. -/
def selection (state : State) (index : Nat) : UInt32 × UInt32 :=
  match index / 20 with
  | 0 => ((state.b &&& state.c) ||| (~~~state.b &&& state.d), 0x5a827999)
  | 1 => (state.b ^^^ state.c ^^^ state.d, 0x6ed9eba1)
  | 2 => ((state.b &&& state.c) ||| (state.b &&& state.d) ||| (state.c &&& state.d), 0x8f1bbcdc)
  | _ => (state.b ^^^ state.c ^^^ state.d, 0xca62c1d6)

/-- Absorbs one block of 64 octets. -/
def compress (state : State) (block : Octets) : State :=
  let scheduled := schedule block
  let mixed := (List.range 80).foldl (fun current index =>
    let (mixture, constant) := selection current index
    ⟨rotateLeft current.a 5 + mixture + current.e + constant + scheduled.getD index 0,
      current.a, rotateLeft current.b 30, current.c, current.d⟩) state
  ⟨state.a + mixed.a, state.b + mixed.b, state.c + mixed.c, state.d + mixed.d, state.e + mixed.e⟩

/-- The octets of the state's words, the most significant octet of each first. -/
def State.octets (state : State) : Octets :=
  [state.a, state.b, state.c, state.d, state.e].flatMap fun word =>
    Octets.bigEndian 4 word.toNat

/-- The SHA-1 digest of a message. -/
def hash (message : Octets) : Octets :=
  (absorb compress initial (pad (Octets.bigEndian 8) message)).octets

@[simp] theorem length_hash (message : Octets) : (hash message).length = 20 := by
  simp [hash, State.octets]

end CashHerald.Sha1
