import CashHerald.Digest.Padding

/-!
The MD5 hash function, which answers the challenge of the older upgrade handshake. Main statement:
a digest has 16 octets.
-/

namespace CashHerald.Md5

open Digest

/-- The chaining state has four words. -/
structure State where
  a : UInt32
  b : UInt32
  c : UInt32
  d : UInt32
  deriving DecidableEq, Repr

def initial : State :=
  ⟨0x67452301, 0xefcdab89, 0x98badcfe, 0x10325476⟩

/-- The integer parts of the absolute sines of 1 to 64, scaled by `2 ^ 32`. -/
def constants : Array UInt32 :=
  #[0xd76aa478, 0xe8c7b756, 0x242070db, 0xc1bdceee, 0xf57c0faf, 0x4787c62a, 0xa8304613, 0xfd469501,
    0x698098d8, 0x8b44f7af, 0xffff5bb1, 0x895cd7be, 0x6b901122, 0xfd987193, 0xa679438e, 0x49b40821,
    0xf61e2562, 0xc040b340, 0x265e5a51, 0xe9b6c7aa, 0xd62f105d, 0x02441453, 0xd8a1e681, 0xe7d3fbc8,
    0x21e1cde6, 0xc33707d6, 0xf4d50d87, 0x455a14ed, 0xa9e3e905, 0xfcefa3f8, 0x676f02d9, 0x8d2a4c8a,
    0xfffa3942, 0x8771f681, 0x6d9d6122, 0xfde5380c, 0xa4beea44, 0x4bdecfa9, 0xf6bb4b60, 0xbebfbc70,
    0x289b7ec6, 0xeaa127fa, 0xd4ef3085, 0x04881d05, 0xd9d4d039, 0xe6db99e5, 0x1fa27cf8, 0xc4ac5665,
    0xf4292244, 0x432aff97, 0xab9423a7, 0xfc93a039, 0x655b59c3, 0x8f0ccc92, 0xffeff47d, 0x85845dd1,
    0x6fa87e4f, 0xfe2ce6e0, 0xa3014314, 0x4e0811a1, 0xf7537e82, 0xbd3af235, 0x2ad7d2bb, 0xeb86d391]

/-- The rotation of a step depends on its quarter and on its place within four. -/
def rotation (index : Nat) : UInt32 :=
  #[7, 12, 17, 22, 5, 9, 14, 20, 4, 11, 16, 23, 6, 10, 15, 21].getD (index / 16 * 4 + index % 4) 0

/-- The mixing function and the message word of a step depend on its quarter. -/
def selection (state : State) (index : Nat) : UInt32 × Nat :=
  match index / 16 with
  | 0 => ((state.b &&& state.c) ||| (~~~state.b &&& state.d), index)
  | 1 => ((state.d &&& state.b) ||| (~~~state.d &&& state.c), (5 * index + 1) % 16)
  | 2 => (state.b ^^^ state.c ^^^ state.d, (3 * index + 5) % 16)
  | _ => (state.c ^^^ (state.b ||| ~~~state.d), 7 * index % 16)

/-- Absorbs one block of 64 octets. -/
def compress (state : State) (block : Octets) : State :=
  let message := (words Octets.ofLittleEndian block).toArray
  let mixed := (List.range 64).foldl (fun current index =>
    let (mixture, place) := selection current index
    let total := current.a + mixture + constants.getD index 0 + message.getD place 0
    ⟨current.d, current.b + rotateLeft total (rotation index), current.b, current.c⟩) state
  ⟨state.a + mixed.a, state.b + mixed.b, state.c + mixed.c, state.d + mixed.d⟩

/-- The octets of the state's words, the least significant octet of each first. -/
def State.octets (state : State) : Octets :=
  [state.a, state.b, state.c, state.d].flatMap fun word => Octets.littleEndian 4 word.toNat

/-- The MD5 digest of a message. -/
def hash (message : Octets) : Octets :=
  (absorb compress initial (pad (Octets.littleEndian 8) message)).octets

@[simp] theorem length_hash (message : Octets) : (hash message).length = 16 := by
  simp [hash, State.octets]

end CashHerald.Md5
