import CashHerald.Proofs.Address.Canonical
import Mathlib

/-!
The checksum as the only completion of a list of groups. Main statement: exactly one list of eight
groups leaves no remainder behind others. It is the remainder that zeros leave in its place, and an
address is written with it.
-/

namespace CashHerald.Checksum

open Regroup

/-- Eight groups that leave no remainder behind the values. -/
structure Completes (values last : List UInt8) : Prop where
  length : last.length = size
  narrow : Narrow 5 last
  remainder : polymod (values ++ last) = 0

/-- The remainder that zeros leave in the place of the checksum. -/
def template (values : List UInt8) : UInt64 :=
  polymod (values ++ List.replicate size 0)

theorem completes_template (values : List UInt8) : Completes values (groups (template values)) :=
  have length := length_groups (template values)
  have narrow := narrow_groups (template values)
  ⟨length, narrow, (polymod_append_eq_zero_iff values length narrow).mpr rfl⟩

theorem Completes.eq_groups {values last : List UInt8} (completes : Completes values last) :
    last = groups (template values) :=
  (polymod_append_eq_zero_iff values completes.length completes.narrow).mp completes.remainder

theorem completes_iff {values last : List UInt8} :
    Completes values last ↔ last = groups (template values) := by
  constructor
  · exact Completes.eq_groups
  · rintro rfl
    exact completes_template values

/-- An address has the only checksum that completes its groups. -/
theorem Completes.encode_eq {address : Address} {last : List UInt8}
    (completes : Completes (networkGroups address.network ++ address.payload) last) :
    address.encode = String.ofList
      (address.network.toList ++ ':' :: (address.payload ++ last).map Address.symbol) := by
  have computed : last = make address.network address.payload := completes.eq_groups
  rw [computed, ← Address.groups, ← Address.toList_encode, String.ofList_toList]

/-- Of all lists of eight groups, one leaves no remainder behind the values. Its groups are the digits
of the remainder that zeros leave in its place, the highest first. An address is written with the
list behind its groups. While the values are shifted in, the register has forty bits. -/
theorem completed_once (values : List UInt8) :
    (∀ last, Completes values last ↔ last = groups (template values)) ∧
    value 5 (groups (template values)) = (template values).toNat ∧
    (∀ (address : Address) (last : List UInt8),
      Completes (networkGroups address.network ++ address.payload) last →
        address.encode = String.ofList
          (address.network.toList ++ ':' :: (address.payload ++ last).map Address.symbol)) ∧
    (∀ count, (run 1 (values.take count)).toNat < 2 ^ 40) :=
  ⟨fun _ => completes_iff, value_groups (fits_polymod _), fun _ _ => Completes.encode_eq,
    fun _ => fits_run fits_one _⟩

end CashHerald.Checksum
