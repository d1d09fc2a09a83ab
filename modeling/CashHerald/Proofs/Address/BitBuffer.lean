import CashHerald.Proofs.Address.Regrouping
import Mathlib

/-!
Bits regrouped within a word of 32 bits, by shifts and masks. Main statements: the word holds every
bit that was read and is not emitted yet, so that the groups are the same as with a number for an
accumulator; and octets are in bijection with the groups that are read as octets.
-/

namespace CashHerald.Regroup

/-- The latest bits in a word, the count of those that are pending, and the groups emitted. -/
structure Buffer where
  word : UInt32
  pending : UInt32
  emitted : List UInt8

namespace Buffer

def empty : Buffer := ⟨0, 0, []⟩

/-- The lowest bits of a word. -/
def mask (width : UInt32) : UInt32 :=
  (1 <<< width) - 1

/-- Shifts a value into the word, which keeps one bit less than both widths together. -/
def shift (source target : UInt32) (buffer : Buffer) (value : UInt8) : Buffer where
  word := ((buffer.word <<< source) ||| value.toUInt32) &&& mask (source + target - 1)
  pending := buffer.pending + source
  emitted := buffer.emitted

/-- Emits the highest pending bits as a group. -/
def emitGroup (target : UInt32) (buffer : Buffer) : Buffer where
  word := buffer.word
  pending := buffer.pending - target
  emitted := buffer.emitted ++
    [((buffer.word >>> (buffer.pending - target)) &&& mask target).toUInt8]

/-- Emits all groups that the pending bits complete. -/
def drain (target : UInt32) (buffer : Buffer) : Buffer :=
  if 0 < target ∧ target ≤ buffer.pending then drain target (buffer.emitGroup target)
  else buffer
termination_by buffer.pending.toNat
decreasing_by
  rename_i enough
  have positive : 0 < target.toNat := UInt32.lt_iff_toNat_lt.mp enough.1
  have fits : target.toNat ≤ buffer.pending.toNat := UInt32.le_iff_toNat_le.mp enough.2
  change (buffer.pending - target).toNat < buffer.pending.toNat
  rw [UInt32.toNat_sub_of_le _ _ enough.2]
  omega

/-- Reads one value; one with bits above the source width is refused. -/
def take? (source target : UInt32) (buffer : Buffer) (value : UInt8) : Option Buffer :=
  if value.toUInt32 >>> source = 0 then some (drain target (buffer.shift source target value))
  else none

def run? (source target : UInt32) (values : List UInt8) : Option Buffer :=
  values.foldlM (take? source target) empty

/-- The groups emitted, and what the bits left over at the end give. -/
def finish (ending : Ending) (source target : UInt32) (buffer : Buffer) : Option (List UInt8) :=
  let group := (buffer.word <<< (target - buffer.pending)) &&& mask target
  match ending with
  | .filled =>
    if 0 < buffer.pending then some (buffer.emitted ++ [group.toUInt8]) else some buffer.emitted
  | .exact => if source ≤ buffer.pending ∨ group ≠ 0 then none else some buffer.emitted

/-- Regroups values of `source` bits into values of `target` bits within a word. -/
def regroup? (ending : Ending) (source target : UInt32) (values : List UInt8) :
    Option (List UInt8) :=
  (run? source target values).bind (finish ending source target)

/-- The buffers on the way through a list of values of which `read` are shifted in: before a value,
behind it, and behind each group. -/
inductive Reached (source target : UInt32) : List UInt8 → Buffer → Prop where
  | start : Reached source target [] empty
  | shift {read : List UInt8} {buffer : Buffer} (value : UInt8) :
      Reached source target read buffer → buffer.pending < target →
      value.toUInt32 >>> source = 0 →
      Reached source target (read ++ [value]) (buffer.shift source target value)
  | group {read : List UInt8} {buffer : Buffer} :
      Reached source target read buffer → target ≤ buffer.pending →
      Reached source target read (buffer.emitGroup target)

/-- No bit is lost: those read are the bits of the groups emitted, and behind them the pending bits
of the word. -/
structure Complete (source target : UInt32) (read : List UInt8) (buffer : Buffer) : Prop where
  narrow : Narrow target.toNat buffer.emitted
  length : source.toNat * read.length =
    target.toNat * buffer.emitted.length + buffer.pending.toNat
  value : value source.toNat read =
    value target.toNat buffer.emitted * 2 ^ buffer.pending.toNat +
      buffer.word.toNat % 2 ^ buffer.pending.toNat

/-- Values of the source width are read to the end, and no buffer on the way loses a bit. -/
structure Lossless (source target : UInt32) : Prop where
  reads : ∀ values, Narrow source.toNat values →
    ∃ buffer, run? source target values = some buffer ∧ Reached source target values buffer
  complete : ∀ read buffer, Reached source target read buffer → Complete source target read buffer

theorem toNat_mask {width : UInt32} (small : width.toNat < 32) :
    (mask width).toNat = 2 ^ width.toNat - 1 := by
  have power : ((1 : UInt32) <<< width).toNat = 2 ^ width.toNat := by
    rw [UInt32.toNat_shiftLeft, Nat.mod_eq_of_lt small, UInt32.toNat_one, Nat.one_shiftLeft]
    exact Nat.mod_eq_of_lt (Nat.pow_lt_pow_right (by decide) small)
  have positive : (1 : UInt32) ≤ 1 <<< width := by
    rw [UInt32.le_iff_toNat_le, power]
    exact Nat.one_le_two_pow
  rw [mask, UInt32.toNat_sub_of_le _ _ positive, power, UInt32.toNat_one]

theorem toNat_and_mask (word : UInt32) {width : UInt32} (small : width.toNat < 32) :
    (word &&& mask width).toNat = word.toNat % 2 ^ width.toNat := by
  rw [UInt32.toNat_and, toNat_mask small, Nat.and_two_pow_sub_one_eq_mod]

/-- A word with room above its bits loses none to a shift. -/
theorem toNat_shiftLeft {word amount : UInt32} {width : Nat} (bits : word.toNat < 2 ^ width)
    (room : width + amount.toNat < 32) :
    (word <<< amount).toNat = word.toNat * 2 ^ amount.toNat := by
  have within : word.toNat * 2 ^ amount.toNat < 2 ^ 32 := by
    calc word.toNat * 2 ^ amount.toNat < 2 ^ width * 2 ^ amount.toNat :=
          Nat.mul_lt_mul_of_pos_right bits (Nat.two_pow_pos _)
      _ = 2 ^ (width + amount.toNat) := (Nat.pow_add ..).symm
      _ ≤ 2 ^ 32 := Nat.pow_le_pow_right (by decide) room.le
  have small : amount.toNat < 32 := by omega
  rw [UInt32.toNat_shiftLeft, Nat.mod_eq_of_lt small, Nat.shiftLeft_eq, Nat.mod_eq_of_lt within]

theorem group_eq (word : UInt32) {left target : UInt32} (leftSmall : left.toNat < 32)
    (targetSmall : target.toNat < 32) :
    ((word >>> left) &&& mask target).toUInt8 =
      UInt8.ofNat (word.toNat / 2 ^ left.toNat % 2 ^ target.toNat) := by
  rw [← UInt8.ofNat_uInt32ToNat, toNat_and_mask _ targetSmall, UInt32.toNat_shiftRight,
    Nat.mod_eq_of_lt leftSmall, Nat.shiftRight_eq_div_pow]

theorem shiftRight_eq_zero_iff (value : UInt8) {source : UInt32} (small : source.toNat < 32) :
    value.toUInt32 >>> source = 0 ↔ value.toNat < 2 ^ source.toNat := by
  rw [← UInt32.toNat_inj, UInt32.toNat_shiftRight, Nat.mod_eq_of_lt small, UInt8.toNat_toUInt32,
    Nat.shiftRight_eq_div_pow, UInt32.toNat_zero]
  exact Nat.div_eq_zero_iff_lt (Nat.two_pow_pos _)

variable {source target : UInt32} {read : List UInt8} {buffer : Buffer}

/-- The widths are those of octets or of parts of them. -/
structure Widths (source target : UInt32) : Prop where
  positive : 0 < target.toNat
  source_le : source.toNat ≤ 8
  target_le : target.toNat ≤ 8

theorem Widths.source_lt (widths : Widths source target) : source.toNat < 32 :=
  widths.source_le.trans_lt (by decide)

theorem Widths.toNat_kept (widths : Widths source target) :
    (source + target - 1).toNat = source.toNat + target.toNat - 1 := by
  obtain ⟨positive, sourceSmall, targetSmall⟩ := widths
  have sum : (source + target).toNat = source.toNat + target.toNat := by
    rw [UInt32.toNat_add, Nat.mod_eq_of_lt (by omega)]
  have one : (1 : UInt32) ≤ source + target := by
    rw [UInt32.le_iff_toNat_le, sum, UInt32.toNat_one]
    omega
  rw [UInt32.toNat_sub_of_le _ _ one, sum, UInt32.toNat_one]

/-- The word is the number in the accumulator, and all pending bits are among those kept. -/
structure Sound (source target : UInt32) (read : List UInt8) (buffer : Buffer) : Prop where
  progress : Progress source.toNat target.toNat read buffer.emitted buffer.word.toNat
    buffer.pending.toNat
  inside : buffer.pending.toNat ≤ source.toNat + target.toNat - 1

theorem sound_empty : Sound source target [] empty where
  progress := ⟨⟨List.forall_mem_nil _, (Nat.zero_div _).symm⟩, rfl, (Nat.zero_mod _).symm⟩
  inside := Nat.zero_le _

theorem Sound.word_lt (sound : Sound source target read buffer) :
    buffer.word.toNat < 2 ^ (source.toNat + target.toNat - 1) := by
  rw [sound.progress.accumulated]
  exact Nat.mod_lt _ (Nat.two_pow_pos _)

/-- Only the mask drops bits of a word when a value is shifted in. -/
theorem Sound.toNat_word_shift (sound : Sound source target read buffer)
    (widths : Widths source target) {value : UInt8} (narrow : value.toNat < 2 ^ source.toNat) :
    (buffer.shift source target value).word.toNat =
      (buffer.word.toNat * 2 ^ source.toNat + value.toNat) %
        2 ^ (source.toNat + target.toNat - 1) := by
  have width := widths.toNat_kept
  obtain ⟨positive, sourceSmall, targetSmall⟩ := widths
  have joined : ((buffer.word <<< source) ||| value.toUInt32).toNat =
      buffer.word.toNat * 2 ^ source.toNat + value.toNat := by
    rw [UInt32.toNat_or, toNat_shiftLeft sound.word_lt (by omega), UInt8.toNat_toUInt32,
      ← Nat.shiftLeft_eq, Nat.shiftLeft_add_eq_or_of_lt narrow]
  rw [shift, toNat_and_mask _ (by omega), joined, width]

theorem Sound.shift (sound : Sound source target read buffer) (widths : Widths source target)
    (room : buffer.pending < target) {value : UInt8} (narrow : value.toNat < 2 ^ source.toNat) :
    Sound source target (read ++ [value]) (buffer.shift source target value) := by
  have word := sound.toNat_word_shift widths narrow
  have below : buffer.pending.toNat < target.toNat := UInt32.lt_iff_toNat_lt.mp room
  obtain ⟨positive, sourceSmall, targetSmall⟩ := widths
  have pending : (buffer.shift source target value).pending.toNat =
      buffer.pending.toNat + source.toNat := by
    rw [Buffer.shift, UInt32.toNat_add, Nat.mod_eq_of_lt (by omega)]
  constructor
  · rw [word, pending]
    exact sound.progress.shift narrow
  · omega

theorem Sound.group (sound : Sound source target read buffer) (widths : Widths source target)
    (enough : target ≤ buffer.pending) :
    Sound source target read (buffer.emitGroup target) := by
  have inside := sound.inside
  have fits : target.toNat ≤ buffer.pending.toNat := UInt32.le_iff_toNat_le.mp enough
  have left : (buffer.pending - target).toNat = buffer.pending.toNat - target.toNat :=
    UInt32.toNat_sub_of_le _ _ enough
  obtain ⟨positive, sourceSmall, targetSmall⟩ := widths
  constructor
  · rw [emitGroup, group_eq _ (by omega) (by omega), left]
    exact sound.progress.group targetSmall fits inside
  · change (buffer.pending - target).toNat ≤ source.toNat + target.toNat - 1
    omega

theorem Reached.sound (reached : Reached source target read buffer)
    (widths : Widths source target) : Sound source target read buffer := by
  induction reached with
  | start => exact sound_empty
  | shift value _ room small inductionHypothesis =>
    have narrow := (shiftRight_eq_zero_iff value widths.source_lt).mp small
    exact inductionHypothesis.shift widths room narrow
  | group _ enough inductionHypothesis => exact inductionHypothesis.group widths enough

theorem Sound.complete (sound : Sound source target read buffer) :
    Complete source target read buffer where
  narrow := sound.progress.highest.narrow
  length := sound.progress.length
  value := by
    have low : buffer.word.toNat % 2 ^ buffer.pending.toNat =
        Regroup.value source.toNat read % 2 ^ buffer.pending.toNat := by
      rw [sound.progress.accumulated]
      exact Nat.mod_mod_of_dvd _ (Nat.pow_dvd_pow 2 sound.inside)
    rw [sound.progress.highest.value, low, Nat.mul_comm]
    exact (Nat.div_add_mod _ _).symm

theorem Reached.drain (reached : Reached source target read buffer) (positive : 0 < target) :
    Reached source target read (drain target buffer) ∧ (drain target buffer).pending < target := by
  fun_induction Buffer.drain target buffer with
  | case1 buffer enough inductionHypothesis =>
    exact inductionHypothesis (reached.group enough.2)
  | case2 buffer few =>
    exact ⟨reached, UInt32.not_le.mp fun enough => few ⟨positive, enough⟩⟩

/-- Values of the source width are all read. -/
theorem exists_run (widths : Widths source target) {values : List UInt8}
    (narrow : Narrow source.toNat values) :
    ∃ buffer, run? source target values = some buffer ∧
      Reached source target values buffer ∧ buffer.pending < target := by
  have positive : 0 < target := UInt32.lt_iff_toNat_lt.mpr widths.positive
  induction values using List.reverseRecOn with
  | nil => exact ⟨empty, rfl, .start, positive⟩
  | append_singleton front last inductionHypothesis =>
    obtain ⟨frontNarrow, lastNarrow⟩ := narrow_append.mp narrow
    obtain ⟨buffer, found, reached, room⟩ := inductionHypothesis frontNarrow
    have small : last.toUInt32 >>> source = 0 :=
      (shiftRight_eq_zero_iff last widths.source_lt).mpr (narrow_singleton.mp lastNarrow)
    refine ⟨_, ?_, (reached.shift last room small).drain positive⟩
    rw [run?, List.foldlM_append, ← run?, found]
    change take? source target buffer last >>= pure = _
    rw [bind_pure, take?, if_pos small]

/-- A value with too many bits is refused. -/
theorem narrow_of_run? (widths : Widths source target) {values : List UInt8}
    (found : run? source target values = some buffer) : Narrow source.toNat values := by
  induction values using List.reverseRecOn generalizing buffer with
  | nil => exact List.forall_mem_nil _
  | append_singleton front last inductionHypothesis =>
    rw [run?, List.foldlM_append, ← run?] at found
    obtain ⟨before, earlier, later⟩ := Option.bind_eq_some_iff.mp found
    have small : last.toUInt32 >>> source = 0 := by
      by_contra wide
      change take? source target before last >>= pure = some buffer at later
      rw [bind_pure, take?, if_neg wide] at later
      cases later
    apply narrow_append.mpr
    exact ⟨inductionHypothesis earlier,
      narrow_singleton.mpr ((shiftRight_eq_zero_iff last widths.source_lt).mp small)⟩

theorem Sound.finish_eq (sound : Sound source target read buffer) (widths : Widths source target)
    (room : buffer.pending < target) (ending : Ending) :
    finish ending source target buffer =
      (close ending source.toNat target.toNat buffer.word.toNat buffer.pending.toNat).map
        (buffer.emitted ++ ·) := by
  have left : (target - buffer.pending).toNat = target.toNat - buffer.pending.toNat :=
    UInt32.toNat_sub_of_le _ _ (UInt32.le_of_lt room)
  obtain ⟨positive, sourceSmall, targetSmall⟩ := widths
  have group : ((buffer.word <<< (target - buffer.pending)) &&& mask target).toNat =
      buffer.word.toNat * 2 ^ (target.toNat - buffer.pending.toNat) % 2 ^ target.toNat := by
    rw [toNat_and_mask _ (by omega), toNat_shiftLeft sound.word_lt (by omega), left]
  cases ending with
  | filled =>
    simp only [finish, close, UInt32.lt_iff_toNat_lt, UInt32.toNat_zero, ← group,
      UInt8.ofNat_uInt32ToNat]
    split
    · rfl
    · exact congrArg some (List.append_nil _).symm
  | exact =>
    simp only [finish, close, UInt32.le_iff_toNat_le, ne_eq, ← UInt32.toNat_inj, group,
      UInt32.toNat_zero]
    split
    · rfl
    · exact congrArg some (List.append_nil _).symm

/-- Values are regrouped within a word of 32 bits as they are with a number. -/
theorem regroup?_eq (widths : Widths source target) (ending : Ending) (values : List UInt8) :
    regroup? ending source target values =
      Regroup.regroup? ending source.toNat target.toNat values := by
  by_cases narrow : Narrow source.toNat values
  · obtain ⟨buffer, found, reached, room⟩ := exists_run widths narrow
    obtain ⟨emitted, accumulator, pending, progress, below, outcome⟩ :=
      exists_progress widths.positive widths.target_le ending narrow
    have sound := reached.sound widths
    -- Both have read the same values, so that they are in the same state at the end.
    obtain ⟨rfl, rfl, rfl⟩ :=
      sound.progress.unique progress (UInt32.lt_iff_toNat_lt.mp room) below
    rw [regroup?, found, Option.bind_some, sound.finish_eq widths room, outcome]
  · have refused : run? source target values = none := by
      apply Option.eq_none_iff_forall_ne_some.mpr
      intro buffer found
      exact narrow (narrow_of_run? widths found)
    have alike : Regroup.regroup? ending source.toNat target.toNat values = none := by
      apply Option.eq_none_iff_forall_ne_some.mpr
      intro groups found
      exact narrow (narrow_of_regroup? found)
    rw [regroup?, refused, alike, Option.bind_none]

theorem lossless (widths : Widths source target) : Lossless source target where
  reads := by
    intro values narrow
    obtain ⟨buffer, found, reached, -⟩ := exists_run widths narrow
    exact ⟨buffer, found, reached⟩
  complete := fun _ _ reached => (reached.sound widths).complete

theorem widths_toGroups : Widths 8 5 := by
  constructor <;> decide

theorem widths_ofGroups : Widths 5 8 := by
  constructor <;> decide

end Buffer

/-- Octets are always written in groups of five bits, from which they are read back. Groups that are
read as octets are the groups in which these octets are written, so that exactly what is written is
read. A word of 32 bits is enough for both ways: no bit that was read is ever missing from it before
it is emitted, and the results are those of the word. -/
theorem regrouped_without_loss :
    (∀ octets : Octets, ∃ groups, toGroups? octets = some groups ∧ Narrow 5 groups ∧
      ofGroups? groups = some octets) ∧
    (∀ groups octets, ofGroups? groups = some octets ↔ toGroups? octets = some groups) ∧
    (∀ groups, (∃ octets, ofGroups? groups = some octets) ↔
      ∃ octets, toGroups? octets = some groups) ∧
    (Buffer.Lossless 8 5 ∧
      ∀ octets, toGroups? octets = Buffer.regroup? .filled 8 5 octets) ∧
    (Buffer.Lossless 5 8 ∧
      ∀ groups, ofGroups? groups = Buffer.regroup? .exact 5 8 groups) := by
  refine ⟨?_, ?_, ?_, ⟨Buffer.lossless Buffer.widths_toGroups, ?_⟩,
    ⟨Buffer.lossless Buffer.widths_ofGroups, ?_⟩⟩
  · intro octets
    obtain ⟨groups, written⟩ := exists_toGroups? octets
    exact ⟨groups, written, narrow_of_toGroups? written, ofGroups?_eq_some_iff.mpr written⟩
  · intro groups octets
    exact ofGroups?_eq_some_iff
  · intro groups
    exact exists_congr fun octets => ofGroups?_eq_some_iff
  · intro octets
    exact (Buffer.regroup?_eq Buffer.widths_toGroups .filled octets).symm
  · intro groups
    exact (Buffer.regroup?_eq Buffer.widths_ofGroups .exact groups).symm

end CashHerald.Regroup
