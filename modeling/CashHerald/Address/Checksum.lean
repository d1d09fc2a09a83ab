import CashHerald.Octets.Basic

/-!
The checksum of an address: a shift register of forty bits over groups of five bits. Main
statement: the register after a list of groups is reached from the register before its last part.
-/

namespace CashHerald.Checksum

/-- The register takes one of these for each of the five bits that leave it. -/
def generators : List UInt64 :=
  [0x98f2bc8e61, 0x79b76d99e2, 0xf33e5fb3c4, 0xae2eabe2a8, 0x1e4f43e470]

/-- The sum of the generators whose bits are set in the bits that leave the register. -/
def feedback (leaving : UInt64) : UInt64 :=
  generators.zipIdx.foldl (fun total (generator, index) =>
    if (leaving >>> UInt64.ofNat index) &&& 1 = 1 then total ^^^ generator else total) 0

/-- Shifts a group into the register. -/
def step (register : UInt64) (group : UInt8) : UInt64 :=
  (((register &&& 0x7ffffffff) <<< 5) ^^^ group.toUInt64) ^^^ feedback (register >>> 35)

/-- The register after a list of groups. -/
def run (register : UInt64) (groups : List UInt8) : UInt64 :=
  groups.foldl step register

/-- The remainder of a list of groups; zero means that its checksum is right. -/
def polymod (groups : List UInt8) : UInt64 :=
  run 1 groups ^^^ 1

/-- The number of groups in a checksum. -/
def size : Nat := 8

/-- The groups of a network name, which the checksum covers too. -/
def networkGroups (network : String) : List UInt8 :=
  network.toByteArray.data.toList.map (· &&& 0x1f) ++ [0]

/-- The eight groups of a remainder, the most significant first. -/
def groups (remainder : UInt64) : List UInt8 :=
  (List.range size).map fun index =>
    ((remainder >>> UInt64.ofNat (5 * (7 - index))) &&& 0x1f).toUInt8

/-- The checksum of a payload under a network name. -/
def make (network : String) (payload : List UInt8) : List UInt8 :=
  groups (polymod (networkGroups network ++ payload ++ List.replicate size 0))

/-- The checksum at the end of the groups is right under a network name. -/
def verify (network : String) (payload : List UInt8) : Bool :=
  polymod (networkGroups network ++ payload) == 0

theorem run_append (register : UInt64) (first second : List UInt8) :
    run register (first ++ second) = run (run register first) second := by
  simp [run]

@[simp] theorem length_groups (remainder : UInt64) : (groups remainder).length = 8 := by
  simp [groups, size]

@[simp] theorem length_make (network : String) (payload : List UInt8) :
    (make network payload).length = 8 := by
  simp [make]

end CashHerald.Checksum
