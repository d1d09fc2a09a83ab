import CashHerald.Address.Checksum
import CashHerald.Proofs.Address.Regrouping
import Mathlib

/-!
The checksum of an address as a remainder. A step of the register is linear in exclusive or, and the
register has forty bits. Main statement: of all lists of eight groups, the checksum of a payload is
the one that is verified behind it.
-/

namespace CashHerald.Checksum

open Regroup

theorem and_xor (first second mask : UInt64) :
    (first ^^^ second) &&& mask = (first &&& mask) ^^^ (second &&& mask) := by
  apply UInt64.toNat_inj.mp
  simp only [UInt64.toNat_and, UInt64.toNat_xor]
  exact Nat.and_xor_distrib_right ..

theorem and_one (word : UInt64) : word &&& 1 = 0 ∨ word &&& 1 = 1 := by
  have low : (word &&& 1).toNat = word.toNat % 2 := by
    rw [UInt64.toNat_and]
    exact Nat.and_one_is_mod word.toNat
  rcases Nat.mod_two_eq_zero_or_one word.toNat with even | odd
  · exact .inl (UInt64.toNat_inj.mp (low.trans even))
  · exact .inr (UInt64.toNat_inj.mp (low.trans odd))

/-- A generator is added for its bit of those that leave the register. -/
def addGenerator (leaving total : UInt64) (entry : UInt64 × Nat) : UInt64 :=
  if (leaving >>> UInt64.ofNat entry.2) &&& 1 = 1 then total ^^^ entry.1 else total

theorem addGenerator_xor (leaving other total rest : UInt64) (entry : UInt64 × Nat) :
    addGenerator (leaving ^^^ other) (total ^^^ rest) entry =
      addGenerator leaving total entry ^^^ addGenerator other rest entry := by
  simp only [addGenerator, UInt64.shiftRight_xor, and_xor]
  rcases and_one (leaving >>> UInt64.ofNat entry.2) with first | first <;>
    rcases and_one (other >>> UInt64.ofNat entry.2) with second | second <;>
    rw [first, second]
  · rfl
  · exact UInt64.xor_assoc _ _ _
  · change total ^^^ rest ^^^ entry.1 = total ^^^ entry.1 ^^^ rest
    ac_rfl
  · change total ^^^ rest = total ^^^ entry.1 ^^^ (rest ^^^ entry.1)
    calc total ^^^ rest = total ^^^ rest ^^^ (entry.1 ^^^ entry.1) := by simp
      _ = total ^^^ entry.1 ^^^ (rest ^^^ entry.1) := by ac_rfl

/-- What is fed back is linear in the bits that leave the register. -/
theorem feedback_xor (leaving other : UInt64) :
    feedback (leaving ^^^ other) = feedback leaving ^^^ feedback other := by
  have general (entries : List (UInt64 × Nat)) : ∀ total rest,
      entries.foldl (addGenerator (leaving ^^^ other)) (total ^^^ rest) =
        entries.foldl (addGenerator leaving) total ^^^
          entries.foldl (addGenerator other) rest := by
    induction entries with
    | nil => exact fun total rest => rfl
    | cons entry entries inductionHypothesis =>
      intro total rest
      simp only [List.foldl_cons, addGenerator_xor, inductionHypothesis]
  exact general generators.zipIdx 0 0

theorem step_xor (register other : UInt64) (group extra : UInt8) :
    step (register ^^^ other) (group ^^^ extra) = step register group ^^^ step other extra := by
  simp only [step, and_xor, UInt64.shiftLeft_xor, UInt64.shiftRight_xor, feedback_xor,
    UInt8.toUInt64_xor]
  ac_rfl

/-- The register is linear in its start and in the groups together. -/
theorem run_xor (register other : UInt64) {first second : List UInt8}
    (same : first.length = second.length) :
    run (register ^^^ other) (List.zipWith (· ^^^ ·) first second) =
      run register first ^^^ run other second := by
  induction first generalizing register other second with
  | nil =>
    obtain rfl : second = [] := List.length_eq_zero_iff.mp same.symm
    rfl
  | cons group rest inductionHypothesis =>
    cases second with
    | nil => cases same
    | cons extra others =>
      simp only [run, List.zipWith_cons_cons, List.foldl_cons, step_xor]
      exact inductionHypothesis _ _ (Nat.succ.inj same)

/-- Groups are added to what the register is with zeros in their place. -/
theorem run_eq_zeros_xor (register : UInt64) (groups : List UInt8) :
    run register groups = run register (List.replicate groups.length 0) ^^^ run 0 groups := by
  rw [← run_xor register 0 List.length_replicate, UInt64.xor_zero]
  congr 1
  induction groups with
  | nil => rfl
  | cons group rest inductionHypothesis =>
    rw [List.length_cons, List.replicate_succ, List.zipWith_cons_cons, UInt8.zero_xor,
      ← inductionHypothesis]

/-- The register has forty bits. -/
def Fits (register : UInt64) : Prop :=
  register.toNat < 2 ^ 40

theorem fits_xor {register other : UInt64} (first : Fits register) (second : Fits other) :
    Fits (register ^^^ other) := by
  rw [Fits, UInt64.toNat_xor]
  exact Nat.xor_lt_two_pow first second

theorem fits_one : Fits 1 := by
  unfold Fits
  decide

theorem fits_feedback (leaving : UInt64) : Fits (feedback leaving) := by
  have general (entries : List (UInt64 × Nat)) (small : ∀ entry ∈ entries, Fits entry.1) :
      ∀ total, Fits total → Fits (entries.foldl (addGenerator leaving) total) := by
    induction entries with
    | nil => exact fun total fits => fits
    | cons entry rest inductionHypothesis =>
      intro total fits
      apply inductionHypothesis fun other member => small other (List.mem_cons_of_mem _ member)
      unfold addGenerator
      split
      · exact fits_xor fits (small entry List.mem_cons_self)
      · exact fits
  have generator : ∀ entry ∈ generators.zipIdx, Fits entry.1 := by
    unfold Fits
    decide
  exact general _ generator 0 (Nat.two_pow_pos 40)

theorem fits_step (register : UInt64) (group : UInt8) : Fits (step register group) := by
  refine fits_xor (fits_xor ?_ ?_) (fits_feedback _)
  · have low : (register &&& 0x7ffffffff).toNat < 2 ^ 35 := by
      rw [UInt64.toNat_and]
      exact Nat.and_lt_two_pow _ (by decide)
    rw [Fits, UInt64.toNat_shiftLeft]
    change (register &&& 0x7ffffffff).toNat <<< 5 % 2 ^ 64 < 2 ^ 40
    rw [Nat.shiftLeft_eq]
    omega
  · have small := group.toNat_lt
    rw [Fits, UInt8.toNat_toUInt64]
    omega

theorem fits_run {register : UInt64} (fits : Fits register) (groups : List UInt8) :
    Fits (run register groups) := by
  induction groups generalizing register with
  | nil => exact fits
  | cons group rest inductionHypothesis => exact inductionHypothesis (fits_step register group)

theorem fits_polymod (groups : List UInt8) : Fits (polymod groups) :=
  fits_xor (fits_run fits_one groups) fits_one

theorem toNat_group (remainder : UInt64) (index : Nat) :
    (((remainder >>> UInt64.ofNat (5 * (7 - index))) &&& 0x1f).toUInt8).toNat =
      remainder.toNat / 2 ^ (5 * (7 - index)) % 2 ^ 5 := by
  have amount : (UInt64.ofNat (5 * (7 - index))).toNat % 64 = 5 * (7 - index) := by
    rw [UInt64.toNat_ofNat']
    omega
  rw [UInt64.toNat_toUInt8, UInt64.toNat_and, UInt64.toNat_shiftRight, amount,
    Nat.shiftRight_eq_div_pow]
  change (remainder.toNat / 2 ^ (5 * (7 - index)) &&& (2 ^ 5 - 1)) % 2 ^ 8 = _
  rw [Nat.and_two_pow_sub_one_eq_mod]
  omega

theorem narrow_groups (remainder : UInt64) : Narrow 5 (groups remainder) := by
  intro group member
  obtain ⟨index, -, rfl⟩ := List.mem_map.mp member
  rw [toNat_group]
  exact Nat.mod_lt _ (Nat.two_pow_pos 5)

/-- The groups of a remainder are its digits. -/
theorem value_groups {remainder : UInt64} (fits : Fits remainder) :
    value 5 (groups remainder) = remainder.toNat := by
  -- The first groups are the highest digits, so that each one more divides by less.
  have front : ∀ count ≤ 8, value 5 ((List.range count).map fun index =>
      ((remainder >>> UInt64.ofNat (5 * (7 - index))) &&& 0x1f).toUInt8) =
        remainder.toNat / 2 ^ (5 * (8 - count)) := by
    intro count
    induction count with
    | zero =>
      intro _
      exact (Nat.div_eq_of_lt fits).symm
    | succ count inductionHypothesis =>
      intro room
      have width : 5 * (8 - count) = 5 * (7 - count) + 5 := by omega
      have next : 8 - (count + 1) = 7 - count := by omega
      rw [List.range_succ, List.map_append, List.map_singleton, value_concat,
        inductionHypothesis (by omega), toNat_group, width, next, Nat.pow_add,
        ← Nat.div_div_eq_div_mul]
      exact Nat.mod_add_div (remainder.toNat / 2 ^ (5 * (7 - count))) (2 ^ 5)
  have whole := front 8 (by decide)
  rwa [Nat.sub_self, Nat.mul_zero, Nat.pow_zero, Nat.div_one] at whole

/-- While the register has room for a group, a step only shifts the group in. -/
theorem toNat_step {register : UInt64} {group : UInt8} (room : register.toNat < 2 ^ 35)
    (small : group.toNat < 2 ^ 5) :
    (step register group).toNat = group.toNat + 2 ^ 5 * register.toNat := by
  have nothing : register >>> 35 = 0 := by
    apply UInt64.toNat_inj.mp
    rw [UInt64.toNat_shiftRight, Nat.shiftRight_eq_div_pow]
    exact Nat.div_eq_of_lt room
  have kept : (register &&& 0x7ffffffff).toNat = register.toNat := by
    rw [UInt64.toNat_and]
    exact (Nat.and_two_pow_sub_one_eq_mod _ 35).trans (Nat.mod_eq_of_lt room)
  have shifted : ((register &&& 0x7ffffffff) <<< 5).toNat = 2 ^ 5 * register.toNat := by
    rw [UInt64.toNat_shiftLeft, kept]
    change register.toNat <<< 5 % 2 ^ 64 = 2 ^ 5 * register.toNat
    rw [Nat.shiftLeft_eq]
    omega
  have clear : feedback 0 = 0 := by decide
  -- The group and the shifted register have no bit in common.
  have low : (2 ^ 5 * register.toNat ^^^ group.toNat) % 2 ^ 5 = group.toNat := by
    rw [Nat.xor_mod_two_pow, Nat.mul_mod_right, Nat.mod_eq_of_lt small, Nat.zero_xor]
  have high : (2 ^ 5 * register.toNat ^^^ group.toNat) / 2 ^ 5 = register.toNat := by
    rw [Nat.xor_div_two_pow, Nat.mul_div_cancel_left _ (by decide), Nat.div_eq_of_lt small,
      Nat.xor_zero]
  rw [step, nothing, clear, UInt64.xor_zero, UInt64.toNat_xor, shifted, UInt8.toNat_toUInt64,
    ← Nat.mod_add_div (2 ^ 5 * register.toNat ^^^ group.toNat) (2 ^ 5), low, high]

/-- An empty register takes up to eight groups as they are. -/
theorem toNat_run_zero {groups : List UInt8} (narrow : Narrow 5 groups)
    (few : groups.length ≤ 8) : (run 0 groups).toNat = value 5 groups := by
  induction groups using List.reverseRecOn with
  | nil => rfl
  | append_singleton front last inductionHypothesis =>
    obtain ⟨frontNarrow, lastNarrow⟩ := narrow_append.mp narrow
    rw [List.length_append, List.length_singleton] at few
    have earlier := inductionHypothesis frontNarrow (by omega)
    have room : (run 0 front).toNat < 2 ^ 35 := by
      rw [earlier]
      exact (value_lt frontNarrow).trans_le (Nat.pow_le_pow_right (by decide) (by omega))
    rw [run_append, value_concat, ← earlier]
    exact toNat_step room (narrow_singleton.mp lastNarrow)

/-- Eight groups leave no remainder exactly if they are the remainder that zeros in their place
leave. -/
theorem polymod_append_eq_zero_iff (front : List UInt8) {last : List UInt8}
    (length : last.length = size) (narrow : Narrow 5 last) :
    polymod (front ++ last) = 0 ↔ last = groups (polymod (front ++ List.replicate size 0)) := by
  have added : polymod (front ++ last) =
      polymod (front ++ List.replicate size 0) ^^^ run 0 last := by
    rw [polymod, polymod, run_append, run_append, run_eq_zeros_xor _ last, length]
    ac_rfl
  have number := value_groups (fits_polymod (front ++ List.replicate size 0))
  have own : (run 0 last).toNat = value 5 last := toNat_run_zero narrow length.le
  rw [added, UInt64.xor_eq_zero_iff]
  constructor
  · intro same
    apply value_inj (by decide) (by rw [length, length_groups, size]) narrow (narrow_groups _)
    rw [number, same, own]
  · intro same
    apply UInt64.toNat_inj.mp
    rw [own, ← number, ← same]

/-- The checksum of a payload is the one that is verified behind it. -/
theorem verify_append_iff (network : String) (payload : List UInt8) {last : List UInt8}
    (length : last.length = size) (narrow : Narrow 5 last) :
    verify network (payload ++ last) = true ↔ last = make network payload := by
  rw [verify, beq_iff_eq, ← List.append_assoc, polymod_append_eq_zero_iff _ length narrow, make]

end CashHerald.Checksum
