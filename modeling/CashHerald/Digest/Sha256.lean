import CashHerald.Digest.Padding

/-!
The SHA-256 hash function and its double application. Main statement: a digest has 32 octets.
-/

namespace CashHerald.Sha256

open Digest

/-- The chaining state has eight words. -/
structure State where
  a : UInt32
  b : UInt32
  c : UInt32
  d : UInt32
  e : UInt32
  f : UInt32
  g : UInt32
  h : UInt32
  deriving DecidableEq, Repr

/-- The first 32 bits of the fractional parts of the square roots of the first eight primes. -/
def initial : State :=
  ⟨0x6a09e667, 0xbb67ae85, 0x3c6ef372, 0xa54ff53a, 0x510e527f, 0x9b05688c, 0x1f83d9ab, 0x5be0cd19⟩

/-- The first 32 bits of the fractional parts of the cube roots of the first 64 primes. -/
def constants : Array UInt32 :=
  #[0x428a2f98, 0x71374491, 0xb5c0fbcf, 0xe9b5dba5, 0x3956c25b, 0x59f111f1, 0x923f82a4, 0xab1c5ed5,
    0xd807aa98, 0x12835b01, 0x243185be, 0x550c7dc3, 0x72be5d74, 0x80deb1fe, 0x9bdc06a7, 0xc19bf174,
    0xe49b69c1, 0xefbe4786, 0x0fc19dc6, 0x240ca1cc, 0x2de92c6f, 0x4a7484aa, 0x5cb0a9dc, 0x76f988da,
    0x983e5152, 0xa831c66d, 0xb00327c8, 0xbf597fc7, 0xc6e00bf3, 0xd5a79147, 0x06ca6351, 0x14292967,
    0x27b70a85, 0x2e1b2138, 0x4d2c6dfc, 0x53380d13, 0x650a7354, 0x766a0abb, 0x81c2c92e, 0x92722c85,
    0xa2bfe8a1, 0xa81a664b, 0xc24b8b70, 0xc76c51a3, 0xd192e819, 0xd6990624, 0xf40e3585, 0x106aa070,
    0x19a4c116, 0x1e376c08, 0x2748774c, 0x34b0bcb5, 0x391c0cb3, 0x4ed8aa4a, 0x5b9cca4f, 0x682e6ff3,
    0x748f82ee, 0x78a5636f, 0x84c87814, 0x8cc70208, 0x90befffa, 0xa4506ceb, 0xbef9a3f7, 0xc67178f2]

/-- Extends sixteen message words to sixty-four. -/
def schedule (block : Octets) : Array UInt32 :=
  (List.range 48).foldl (fun earlier index =>
    let fifteenth := earlier.getD (index + 1) 0
    let second := earlier.getD (index + 14) 0
    let low := rotateRight fifteenth 7 ^^^ rotateRight fifteenth 18 ^^^ (fifteenth >>> 3)
    let high := rotateRight second 17 ^^^ rotateRight second 19 ^^^ (second >>> 10)
    earlier.push (earlier.getD index 0 + low + earlier.getD (index + 9) 0 + high))
    (words Octets.ofBigEndian block).toArray

/-- Mixes one scheduled word and its constant into the state. -/
def round (state : State) (word constant : UInt32) : State :=
  let high := rotateRight state.e 6 ^^^ rotateRight state.e 11 ^^^ rotateRight state.e 25
  let choice := (state.e &&& state.f) ^^^ (~~~state.e &&& state.g)
  let first := state.h + high + choice + constant + word
  let low := rotateRight state.a 2 ^^^ rotateRight state.a 13 ^^^ rotateRight state.a 22
  let majority := (state.a &&& state.b) ^^^ (state.a &&& state.c) ^^^ (state.b &&& state.c)
  ⟨first + (low + majority), state.a, state.b, state.c, state.d + first, state.e, state.f, state.g⟩

/-- Absorbs one block of 64 octets. -/
def compress (state : State) (block : Octets) : State :=
  let scheduled := schedule block
  let mixed := (List.range 64).foldl (fun current index =>
    round current (scheduled.getD index 0) (constants.getD index 0)) state
  ⟨state.a + mixed.a, state.b + mixed.b, state.c + mixed.c, state.d + mixed.d,
    state.e + mixed.e, state.f + mixed.f, state.g + mixed.g, state.h + mixed.h⟩

/-- The octets of the state's words, the most significant octet of each first. -/
def State.octets (state : State) : Octets :=
  [state.a, state.b, state.c, state.d, state.e, state.f, state.g, state.h].flatMap fun word =>
    Octets.bigEndian 4 word.toNat

/-- The SHA-256 digest of a message. -/
def hash (message : Octets) : Octets :=
  (absorb compress initial (pad (Octets.bigEndian 8) message)).octets

/-- The digest of the digest, which names blocks and transactions. -/
def double (message : Octets) : Octets :=
  hash (hash message)

@[simp] theorem length_hash (message : Octets) : (hash message).length = 32 := by
  simp [hash, State.octets]

@[simp] theorem length_double (message : Octets) : (double message).length = 32 := by
  simp [double]

end CashHerald.Sha256
