import CashHerald.Octets.Basic

/-!
Bits regrouped from one width to another: octets into groups of five bits for writing, and groups
of five bits into octets for reading. The accumulator keeps one bit less than both widths together.
-/

namespace CashHerald.Regroup

/-- Writing fills the last group with zeros; reading allows no more than such a filling. -/
inductive Ending where
  | filled
  | exact
  deriving DecidableEq, Repr

/-- The groups that the pending bits complete, and the number of bits left over. -/
def emit (target accumulator pending : Nat) : List UInt8 × Nat :=
  if 0 < target ∧ target ≤ pending then
    let left := pending - target
    let group := UInt8.ofNat (accumulator / 2 ^ left % 2 ^ target)
    let (groups, last) := emit target accumulator left
    (group :: groups, last)
  else ([], pending)
termination_by pending

/-- The groups that the bits left over at the end give. -/
def close (ending : Ending) (source target accumulator pending : Nat) : Option (List UInt8) :=
  let group := accumulator * 2 ^ (target - pending) % 2 ^ target
  match ending with
  | .filled => if 0 < pending then some [UInt8.ofNat group] else some []
  | .exact => if source ≤ pending ∨ group ≠ 0 then none else some []

/-- Regroups values behind the groups emitted so far, the latest first. -/
def regroupBehind? (ending : Ending) (source target : Nat) (earlier : List UInt8)
    (accumulator pending : Nat) : List UInt8 → Option (List UInt8)
  | [] => (close ending source target accumulator pending).map (earlier.reverse ++ ·)
  | value :: rest =>
    if value.toNat < 2 ^ source then
      let next := (accumulator * 2 ^ source + value.toNat) % 2 ^ (source + target - 1)
      let emitted := emit target next (pending + source)
      regroupBehind? ending source target (emitted.1.reverse ++ earlier) next emitted.2 rest
    else none

/-- Regroups values of `source` bits into values of `target` bits. -/
def regroup? (ending : Ending) (source target : Nat) (values : List UInt8) :
    Option (List UInt8) :=
  regroupBehind? ending source target [] 0 0 values

/-- Octets in groups of five bits. -/
def toGroups? (octets : Octets) : Option (List UInt8) :=
  regroup? .filled 8 5 octets

/-- The octets that groups of five bits write. -/
def ofGroups? (groups : List UInt8) : Option Octets :=
  regroup? .exact 5 8 groups

end CashHerald.Regroup
