import CashHerald.Address.Regroup
import Mathlib

/-!
Bits regrouped from one width to another, as numbers. Values of a width are the digits of a number,
and regrouping writes the digits of this number in another width with zero bits behind it. Main
statement: groups are read as octets exactly when the octets are written in these groups.
-/

namespace CashHerald.Regroup

/-- The number whose digits of `width` bits are the values, the most significant first. -/
def value (width : Nat) (values : List UInt8) : Nat :=
  Nat.ofDigits (2 ^ width) (values.reverse.map UInt8.toNat)

/-- No value has more than `width` bits. -/
def Narrow (width : Nat) (values : List UInt8) : Prop :=
  ∀ value ∈ values, value.toNat < 2 ^ width

/-- The groups are the bits of the values with `fill` zero bits behind them. -/
structure Fills (source target fill : Nat) (values groups : List UInt8) : Prop where
  length : target * groups.length = source * values.length + fill
  value : value target groups = value source values * 2 ^ fill

@[simp] theorem value_nil (width : Nat) : value width [] = 0 := rfl

theorem value_concat (width : Nat) (values : List UInt8) (last : UInt8) :
    value width (values ++ [last]) = last.toNat + 2 ^ width * value width values := by
  simp [value, Nat.ofDigits_cons]

theorem narrow_eight (octets : List UInt8) : Narrow 8 octets :=
  fun octet _ => octet.toNat_lt

theorem narrow_append {width : Nat} {front back : List UInt8} :
    Narrow width (front ++ back) ↔ Narrow width front ∧ Narrow width back :=
  List.forall_mem_append

theorem narrow_singleton {width : Nat} {value : UInt8} :
    Narrow width [value] ↔ value.toNat < 2 ^ width :=
  List.forall_mem_singleton

theorem value_lt {width : Nat} {values : List UInt8} (narrow : Narrow width values) :
    value width values < 2 ^ (width * values.length) := by
  induction values using List.reverseRecOn with
  | nil => exact Nat.one_pos
  | append_singleton front last inductionHypothesis =>
    obtain ⟨frontNarrow, lastNarrow⟩ := narrow_append.mp narrow
    have small : last.toNat < 2 ^ width := narrow_singleton.mp lastNarrow
    have room : 2 ^ width * (value width front + 1) ≤ 2 ^ width * 2 ^ (width * front.length) :=
      Nat.mul_le_mul_left _ (inductionHypothesis frontNarrow)
    rw [value_concat, List.length_append, List.length_singleton, Nat.mul_succ, Nat.pow_add,
      Nat.mul_comm (2 ^ (width * front.length))]
    rw [Nat.mul_succ] at room
    omega

/-- As many digits write one number in one way. -/
theorem value_inj {width : Nat} (positive : 0 < width) {first second : List UInt8}
    (length : first.length = second.length) (firstNarrow : Narrow width first)
    (secondNarrow : Narrow width second) (same : value width first = value width second) :
    first = second := by
  have base : 1 < 2 ^ width := Nat.one_lt_two_pow (by omega)
  have digits {values : List UInt8} (narrow : Narrow width values) :
      ∀ digit ∈ values.reverse.map UInt8.toNat, digit < 2 ^ width := by
    intro digit member
    obtain ⟨value, inside, rfl⟩ := List.mem_map.mp member
    exact narrow value (List.mem_reverse.mp inside)
  have equal : first.reverse.map UInt8.toNat = second.reverse.map UInt8.toNat :=
    Nat.ofDigits_inj_of_len_eq base (by simpa using length) (digits firstNarrow)
      (digits secondNarrow) same
  exact List.reverse_injective
    (List.map_injective_iff.mpr (fun _ _ octets => UInt8.toNat_inj.mp octets) equal)

/-- A digit inside the lowest `width` bits of a number is a digit of the number. -/
theorem digit_of_low {number width left target : Nat} (inside : left + target ≤ width) :
    number % 2 ^ width / 2 ^ left % 2 ^ target = number / 2 ^ left % 2 ^ target := by
  have split : 2 ^ width = 2 ^ left * 2 ^ (width - left) := by
    rw [← Nat.pow_add, Nat.add_sub_cancel' (by omega)]
  rw [split, Nat.mod_mul_right_div_self]
  exact Nat.mod_mod_of_dvd _ (Nat.pow_dvd_pow 2 (by omega))

variable {source target : Nat}

/-- Emitted groups are the bits of a number without its `pending` lowest bits. -/
structure Highest (target number : Nat) (emitted : List UInt8) (pending : Nat) : Prop where
  narrow : Narrow target emitted
  value : value target emitted = number / 2 ^ pending

/-- What was emitted are the highest bits of what was read, and the accumulator holds all bits
that are pending. -/
structure Progress (source target : Nat) (read emitted : List UInt8)
    (accumulator pending : Nat) : Prop where
  highest : Highest target (value source read) emitted pending
  length : source * read.length = target * emitted.length + pending
  accumulated : accumulator = value source read % 2 ^ (source + target - 1)

theorem emit_of_enough {accumulator pending : Nat} (positive : 0 < target)
    (enough : target ≤ pending) :
    emit target accumulator pending =
      (UInt8.ofNat (accumulator / 2 ^ (pending - target) % 2 ^ target) ::
        (emit target accumulator (pending - target)).1,
        (emit target accumulator (pending - target)).2) := by
  rw [emit.eq_def, if_pos ⟨positive, enough⟩]

theorem emit_of_few {accumulator pending : Nat} (few : pending < target) :
    emit target accumulator pending = ([], pending) := by
  rw [emit.eq_def, if_neg (by omega)]

/-- One more value keeps the progress, while its bits are pending with those before it. -/
theorem Progress.shift {read emitted : List UInt8} {accumulator pending : Nat}
    (progress : Progress source target read emitted accumulator pending) {last : UInt8}
    (narrow : last.toNat < 2 ^ source) :
    Progress source target (read ++ [last]) emitted
      ((accumulator * 2 ^ source + last.toNat) % 2 ^ (source + target - 1)) (pending + source) where
  highest := by
    refine ⟨progress.highest.narrow, ?_⟩
    rw [value_concat, progress.highest.value, Nat.pow_add, Nat.mul_comm (2 ^ pending),
      ← Nat.div_div_eq_div_mul, Nat.add_mul_div_left _ _ (Nat.two_pow_pos source),
      Nat.div_eq_of_lt narrow, Nat.zero_add]
  length := by
    have before := progress.length
    rw [List.length_append, List.length_singleton, Nat.mul_succ]
    omega
  accumulated := by
    rw [value_concat, progress.accumulated, Nat.add_comm, Nat.mul_comm]
    exact Nat.ModEq.add_left _ ((Nat.mod_modEq _ _).mul_left _)

/-- The next group emitted goes on with the highest bits of what was read. -/
theorem Progress.group (octet : target ≤ 8) {read emitted : List UInt8} {accumulator pending : Nat}
    (progress : Progress source target read emitted accumulator pending)
    (enough : target ≤ pending) (inside : pending ≤ source + target - 1) :
    Progress source target read
      (emitted ++ [UInt8.ofNat (accumulator / 2 ^ (pending - target) % 2 ^ target)]) accumulator
      (pending - target) := by
  have digit : (UInt8.ofNat (accumulator / 2 ^ (pending - target) % 2 ^ target)).toNat =
      value source read / 2 ^ (pending - target) % 2 ^ target := by
    rw [UInt8.toNat_ofNat', progress.accumulated, digit_of_low (by omega), Nat.mod_eq_of_lt]
    exact (Nat.mod_lt _ (Nat.two_pow_pos _)).trans_le (Nat.pow_le_pow_right (by decide) octet)
  have split : 2 ^ pending = 2 ^ (pending - target) * 2 ^ target := by
    rw [← Nat.pow_add, Nat.sub_add_cancel enough]
  refine ⟨⟨narrow_append.mpr ⟨progress.highest.narrow, narrow_singleton.mpr ?_⟩, ?_⟩, ?_,
    progress.accumulated⟩
  · rw [digit]
    exact Nat.mod_lt _ (Nat.two_pow_pos _)
  · rw [value_concat, digit, progress.highest.value, split, ← Nat.div_div_eq_div_mul]
    exact Nat.mod_add_div _ _
  · have before := progress.length
    rw [List.length_append, List.length_singleton, Nat.mul_succ]
    omega

/-- Emitting keeps the progress, and leaves fewer bits than a group has. -/
theorem Progress.emit (positive : 0 < target) (octet : target ≤ 8) {read emitted : List UInt8}
    {accumulator pending : Nat} (progress : Progress source target read emitted accumulator pending)
    (inside : pending ≤ source + target - 1) :
    let later := Regroup.emit target accumulator pending
    Progress source target read (emitted ++ later.1) accumulator later.2 ∧ later.2 < target := by
  induction pending using Nat.strong_induction_on generalizing emitted with
  | _ pending inductionHypothesis =>
    rcases Nat.lt_or_ge pending target with few | enough
    · rw [emit_of_few few]
      exact ⟨by simpa using progress, few⟩
    · obtain ⟨later, room⟩ := inductionHypothesis (pending - target) (by omega)
        (progress.group octet enough inside) (by omega)
      rw [emit_of_enough positive enough]
      exact ⟨by simpa using later, room⟩

/-- Reading one more value keeps the progress. -/
theorem Progress.next (positive : 0 < target) (octet : target ≤ 8) {read emitted : List UInt8}
    {accumulator pending : Nat} (progress : Progress source target read emitted accumulator pending)
    (room : pending < target) {last : UInt8} (narrow : last.toNat < 2 ^ source) :
    let next := (accumulator * 2 ^ source + last.toNat) % 2 ^ (source + target - 1)
    let later := Regroup.emit target next (pending + source)
    Progress source target (read ++ [last]) (emitted ++ later.1) next later.2 ∧
      later.2 < target :=
  (progress.shift narrow).emit positive octet (by omega)

/-- Values of the source width are all read, and only the end may refuse them. -/
theorem exists_progress (positive : 0 < target) (octet : target ≤ 8) (ending : Ending)
    {values : List UInt8} (narrow : Narrow source values) :
    ∃ emitted accumulator pending, Progress source target values emitted accumulator pending ∧
      pending < target ∧
      regroup? ending source target values =
        (close ending source target accumulator pending).map (emitted ++ ·) := by
  have general (rest : List UInt8) : ∀ {read earlier accumulator pending},
      Narrow source rest → Progress source target read earlier.reverse accumulator pending →
      pending < target →
      ∃ emitted last left, Progress source target (read ++ rest) emitted last left ∧
        left < target ∧
        regroupBehind? ending source target earlier accumulator pending rest =
          (close ending source target last left).map (emitted ++ ·) := by
    induction rest with
    | nil =>
      intro read earlier accumulator pending _ progress room
      exact ⟨earlier.reverse, accumulator, pending, by simpa using progress, room, rfl⟩
    | cons value rest inductionHypothesis =>
      intro read earlier accumulator pending restNarrow progress room
      obtain ⟨small, others⟩ := List.forall_mem_cons.mp restNarrow
      obtain ⟨next, nextRoom⟩ := progress.next positive octet room small
      rw [regroupBehind?, if_pos small, List.append_cons]
      exact inductionHypothesis others (by simpa using next) nextRoom
  have start : Progress source target [] [].reverse 0 0 :=
    ⟨⟨List.forall_mem_nil _, (Nat.zero_div _).symm⟩, rfl, (Nat.zero_mod _).symm⟩
  exact general values narrow start positive

/-- A value with too many bits is refused. -/
theorem narrow_of_regroup? {ending : Ending} {values groups : List UInt8}
    (found : regroup? ending source target values = some groups) : Narrow source values := by
  have general (rest : List UInt8) : ∀ {earlier accumulator pending},
      regroupBehind? ending source target earlier accumulator pending rest = some groups →
        Narrow source rest := by
    induction rest with
    | nil => exact fun _ => List.forall_mem_nil _
    | cons value rest inductionHypothesis =>
      intro earlier accumulator pending read
      rw [regroupBehind?] at read
      split at read
      · rename_i small
        exact List.forall_mem_cons.mpr ⟨small, inductionHypothesis read⟩
      · cases read
  exact general values found

/-- The lowest pending bits, moved to the top of a group. -/
theorem Progress.last_group {read emitted : List UInt8} {accumulator pending : Nat}
    (progress : Progress source target read emitted accumulator pending) (room : pending < target) :
    accumulator * 2 ^ (target - pending) % 2 ^ target =
      value source read % 2 ^ pending * 2 ^ (target - pending) := by
  have split : 2 ^ target = 2 ^ pending * 2 ^ (target - pending) := by
    rw [← Nat.pow_add, Nat.add_sub_cancel' (by omega)]
  rw [split, Nat.mul_mod_mul_right, progress.accumulated,
    Nat.mod_mod_of_dvd _ (Nat.pow_dvd_pow 2 (by omega))]

/-- The number of bits is a number of groups and of bits left over in one way. -/
theorem count_unique {first second firstLeft secondLeft : Nat}
    (same : target * first + firstLeft = target * second + secondLeft)
    (firstSmall : firstLeft < target) (secondSmall : secondLeft < target) :
    first = second ∧ firstLeft = secondLeft := by
  have quotient (count : Nat) {left : Nat} (small : left < target) :
      (target * count + left) / target = count := by
    rw [Nat.mul_add_div (Nat.zero_lt_of_lt small), Nat.div_eq_of_lt small, Nat.add_zero]
  have equal : first = second :=
    (quotient first firstSmall).symm.trans
      ((congrArg (· / target) same).trans (quotient second secondSmall))
  subst equal
  exact ⟨rfl, Nat.add_left_cancel same⟩

/-- What was read leaves one state behind once too few bits for a group are pending. -/
theorem Progress.unique {read emitted others : List UInt8} {accumulator other pending left : Nat}
    (first : Progress source target read emitted accumulator pending)
    (second : Progress source target read others other left) (firstRoom : pending < target)
    (secondRoom : left < target) : emitted = others ∧ accumulator = other ∧ pending = left := by
  obtain ⟨length, rfl⟩ := count_unique (first.length.symm.trans second.length) firstRoom secondRoom
  have same : value target emitted = value target others :=
    first.highest.value.trans second.highest.value.symm
  exact ⟨value_inj (by omega) length first.highest.narrow second.highest.narrow same,
    first.accumulated.trans second.accumulated.symm, rfl⟩

/-- The last group takes the bits left over, and zero bits behind them. -/
theorem Progress.fills (octet : target ≤ 8) {read emitted : List UInt8} {accumulator pending : Nat}
    (progress : Progress source target read emitted accumulator pending) (room : pending < target) :
    let group := UInt8.ofNat (accumulator * 2 ^ (target - pending) % 2 ^ target)
    Narrow target (emitted ++ [group]) ∧
      Fills source target (target - pending) read (emitted ++ [group]) := by
  have digit : (UInt8.ofNat (accumulator * 2 ^ (target - pending) % 2 ^ target)).toNat =
      accumulator * 2 ^ (target - pending) % 2 ^ target := by
    rw [UInt8.toNat_ofNat', Nat.mod_eq_of_lt]
    exact (Nat.mod_lt _ (Nat.two_pow_pos _)).trans_le (Nat.pow_le_pow_right (by decide) octet)
  have split : 2 ^ target = 2 ^ (target - pending) * 2 ^ pending := by
    rw [← Nat.pow_add, Nat.sub_add_cancel (by omega)]
  refine ⟨narrow_append.mpr ⟨progress.highest.narrow, narrow_singleton.mpr ?_⟩, ?_, ?_⟩
  · rw [digit]
    exact Nat.mod_lt _ (Nat.two_pow_pos _)
  · have length := progress.length
    rw [List.length_append, List.length_singleton, Nat.mul_succ]
    omega
  · rw [value_concat, digit, progress.last_group room, progress.highest.value]
    calc value source read % 2 ^ pending * 2 ^ (target - pending) +
          2 ^ target * (value source read / 2 ^ pending)
        = (value source read % 2 ^ pending + 2 ^ pending * (value source read / 2 ^ pending)) *
            2 ^ (target - pending) := by
          rw [split]
          ring
      _ = value source read * 2 ^ (target - pending) := by rw [Nat.mod_add_div]

/-- Values of the source width can be filled up to groups. -/
theorem exists_filled (positive : 0 < target) (octet : target ≤ 8) {values : List UInt8}
    (narrow : Narrow source values) :
    ∃ groups, regroup? .filled source target values = some groups ∧ Narrow target groups ∧
      ∃ fill < target, Fills source target fill values groups := by
  obtain ⟨emitted, accumulator, pending, progress, room, outcome⟩ :=
    exists_progress positive octet .filled narrow
  simp only [close] at outcome
  split at outcome
  · obtain ⟨groupsNarrow, fills⟩ := progress.fills octet room
    exact ⟨_, outcome, groupsNarrow, target - pending, by omega, fills⟩
  · have nothing : pending = 0 := by omega
    subst nothing
    refine ⟨_, outcome, by simpa using progress.highest.narrow, 0, positive, ?_, ?_⟩
    · simpa using progress.length.symm
    · simpa using progress.highest.value

/-- Filled groups are the bits of the values with fewer zero bits behind them than a group has. -/
theorem regroup?_filled_iff (positive : 0 < target) (octet : target ≤ 8)
    {values groups : List UInt8} :
    regroup? .filled source target values = some groups ↔
      Narrow source values ∧ Narrow target groups ∧
        ∃ fill < target, Fills source target fill values groups := by
  constructor
  · intro found
    have narrow := narrow_of_regroup? found
    obtain ⟨written, outcome, spec⟩ := exists_filled positive octet narrow
    obtain rfl : written = groups := Option.some.inj (outcome.symm.trans found)
    exact ⟨narrow, spec⟩
  · rintro ⟨narrow, groupsNarrow, fill, small, fills⟩
    obtain ⟨written, outcome, writtenNarrow, writtenFill, writtenSmall, writtenFills⟩ :=
      exists_filled positive octet narrow
    have total : target * groups.length + writtenFill = target * written.length + fill := by
      rw [fills.length, writtenFills.length, Nat.add_right_comm]
    obtain ⟨length, rfl⟩ := count_unique total writtenSmall small
    rw [outcome, value_inj positive length groupsNarrow writtenNarrow
      (fills.value.trans writtenFills.value.symm)]

/-- Values are regrouped exactly if they are filled groups of what they are regrouped into. -/
theorem regroup?_exact_iff (positive : 0 < target) (octet : target ≤ 8)
    {values groups : List UInt8} :
    regroup? .exact source target values = some groups ↔
      Narrow source values ∧ Narrow target groups ∧
        ∃ fill < min source target, Fills target source fill groups values := by
  constructor
  · intro found
    have narrow := narrow_of_regroup? found
    obtain ⟨emitted, accumulator, pending, progress, room, outcome⟩ :=
      exists_progress positive octet .exact narrow
    rw [found] at outcome
    simp only [close, progress.last_group room] at outcome
    split at outcome
    · cases outcome
    · rename_i accepted
      simp only [Option.map_some, List.append_nil, Option.some.injEq] at outcome
      subst outcome
      obtain ⟨few, zero⟩ := not_or.mp accepted
      have clear : value source values % 2 ^ pending = 0 := by
        rcases Nat.mul_eq_zero.mp (Decidable.not_not.mp zero) with clear | impossible
        · exact clear
        · exact absurd impossible (Nat.two_pow_pos _).ne'
      refine ⟨narrow, progress.highest.narrow, pending, by omega, progress.length, ?_⟩
      rw [progress.highest.value, Nat.div_mul_cancel (Nat.dvd_of_mod_eq_zero clear)]
  · rintro ⟨narrow, groupsNarrow, fill, small, fills⟩
    obtain ⟨emitted, accumulator, pending, progress, room, outcome⟩ :=
      exists_progress positive octet .exact narrow
    obtain ⟨same, rfl⟩ :=
      count_unique (fills.length.symm.trans progress.length) (by omega) room
    have clear : value source values % 2 ^ fill = 0 := by
      rw [fills.value]
      exact Nat.mul_mod_left _ _
    have equal : emitted = groups := by
      apply value_inj positive same.symm progress.highest.narrow groupsNarrow
      rw [progress.highest.value, fills.value, Nat.mul_div_cancel _ (Nat.two_pow_pos fill)]
    rw [outcome, close, progress.last_group room, clear, Nat.zero_mul]
    simp only [ne_eq, not_true_eq_false, or_false]
    rw [if_neg (by omega), Option.map_some, List.append_nil, equal]

/-- Octets can always be written in groups. -/
theorem exists_toGroups? (octets : Octets) : ∃ groups, toGroups? octets = some groups := by
  obtain ⟨groups, written, -⟩ :=
    exists_filled (by decide : 0 < 5) (by decide) (narrow_eight octets)
  exact ⟨groups, written⟩

/-- Groups are read as octets exactly when the octets are written in these groups. -/
theorem ofGroups?_eq_some_iff {groups : List UInt8} {octets : Octets} :
    ofGroups? groups = some octets ↔ toGroups? octets = some groups := by
  rw [ofGroups?, toGroups?, regroup?_exact_iff (by decide) (by decide),
    regroup?_filled_iff (by decide) (by decide)]
  simp only [narrow_eight, true_and]
  exact Iff.rfl

/-- The groups of octets have five bits. -/
theorem narrow_of_toGroups? {octets : Octets} {groups : List UInt8}
    (written : toGroups? octets = some groups) : Narrow 5 groups :=
  narrow_of_regroup? (ofGroups?_eq_some_iff.mpr written)

end CashHerald.Regroup
