import CashHerald.Ledger.Script
import Mathlib

/-!
The grammar of data outputs: pushes in four written forms, and behind the last one no whole push.
Main statement: a script is written in this grammar in exactly one way behind its data mark, and the
data embedded in it are the first octets of what it pushes.
-/

namespace CashHerald.Ledger.Script

/-- The operations that push a payload behind its length, each with the width of the length. -/
def sizedMarks : List (UInt8 × Nat) :=
  [(0x4c, 1), (0x4d, 2), (0x4e, 4)]

/-- A push is written as its length and the payload, if this has one to 75 octets, or as a mark, the
length in as many octets as the mark says, the least significant first, and the payload. -/
inductive Pushed : Octets → Octets → Prop
  | direct {payload : Octets} (present : 1 ≤ payload.length) (few : payload.length ≤ 75) :
    Pushed payload (UInt8.ofNat payload.length :: payload)
  | sized {mark : UInt8} {width : Nat} {payload : Octets} (known : (mark, width) ∈ sizedMarks)
    (fits : payload.length < 256 ^ width) :
    Pushed payload (mark :: (Octets.littleEndian width payload.length ++ payload))

/-- What stands behind the last push: nothing, an operation that is no push with whatever follows
it, or a push that is cut short in its length or in its payload. -/
inductive Tail : Octets → Prop
  | nothing : Tail []
  | other {operation : UInt8} (unpushed : operation = 0 ∨ 0x4e < operation) (rest : Octets) :
    Tail (operation :: rest)
  | cut {payload written front : Octets} (pushed : Pushed payload written)
    (leads : front <+: written) (short : front.length < written.length) : Tail front

/-- A script is written as pushes of some payloads and a tail. -/
structure Written (script : Octets) (payloads pushes : List Octets) (tail : Octets) : Prop where
  whole : script = pushes.flatten ++ tail
  pushed : List.Forall₂ Pushed payloads pushes
  ends : Tail tail

section Push

variable {script payload rest written : Octets} {operation mark : UInt8} {width : Nat}

theorem sized?_eq_some_iff : sized? width script = some (payload, rest) ↔
    payload.length < 256 ^ width ∧
      script = Octets.littleEndian width payload.length ++ payload ++ rest := by
  constructor
  · intro found
    unfold sized? at found
    split at found
    · cases found
    · rename_i field later split
      obtain ⟨rfl, length⟩ := Octets.splitExactly?_eq_some_iff.mp split
      obtain ⟨rfl, number⟩ := Octets.splitExactly?_eq_some_iff.mp found
      obtain ⟨fits, same⟩ := Octets.eq_littleEndian_iff.mpr ⟨length, number⟩
      exact ⟨fits, by rw [← same, List.append_assoc]⟩
  · rintro ⟨fits, rfl⟩
    obtain ⟨length, number⟩ := Octets.eq_littleEndian_iff.mp ⟨fits, rfl⟩
    have field := Octets.splitExactly?_eq_some_iff.mpr ⟨List.append_assoc _ payload rest, length⟩
    simp only [sized?, field]
    exact Octets.splitExactly?_eq_some_iff.mpr ⟨rfl, number⟩

/-- An operation pushes as many octets as it says, or behind a length, or nothing. -/
theorem operation_cases (operation : UInt8) :
    (1 ≤ operation ∧ operation ≤ 0x4b) ∨ (∃ width, (operation, width) ∈ sizedMarks) ∨
      operation = 0 ∨ 0x4e < operation := by
  simp only [sizedMarks, List.mem_cons, Prod.mk.injEq, List.not_mem_nil, or_false]
  grind

theorem push?_direct (present : 1 ≤ operation) (few : operation ≤ 0x4b) (script : Octets) :
    push? (operation :: script) = Octets.splitExactly? operation.toNat script :=
  if_pos ⟨present, few⟩

theorem push?_sized (known : (mark, width) ∈ sizedMarks) (script : Octets) :
    push? (mark :: script) = sized? width script := by
  simp only [sizedMarks, List.mem_cons, Prod.mk.injEq, List.not_mem_nil, or_false] at known
  rcases known with ⟨rfl, rfl⟩ | ⟨rfl, rfl⟩ | ⟨rfl, rfl⟩ <;> rfl

theorem push?_other (unpushed : operation = 0 ∨ 0x4e < operation) (script : Octets) :
    push? (operation :: script) = none := by
  have notDirect : ¬ (1 ≤ operation ∧ operation ≤ 0x4b) := by grind
  have unmarked : operation ≠ 0x4c ∧ operation ≠ 0x4d ∧ operation ≠ 0x4e := by grind
  rw [push?, if_neg notDirect, if_neg unmarked.1, if_neg unmarked.2.1, if_neg unmarked.2.2]

/-- A push is read exactly where one is written, whatever follows it. -/
theorem push?_eq_some_iff : push? script = some (payload, rest) ↔
    ∃ written, Pushed payload written ∧ script = written ++ rest := by
  constructor
  · intro found
    rcases script with _ | ⟨operation, script⟩
    · cases found
    rcases operation_cases operation with ⟨present, few⟩ | ⟨width, known⟩ | unpushed
    · rw [push?_direct present few] at found
      obtain ⟨rfl, length⟩ := Octets.splitExactly?_eq_some_iff.mp found
      have same : UInt8.ofNat payload.length = operation := by rw [length, UInt8.ofNat_toNat]
      rw [UInt8.le_iff_toNat_le, ← length] at present few
      exact ⟨_, .direct present few, by rw [same]; rfl⟩
    · rw [push?_sized known, sized?_eq_some_iff] at found
      obtain ⟨fits, rfl⟩ := found
      exact ⟨_, .sized known fits, rfl⟩
    · rw [push?_other unpushed] at found
      cases found
  · rintro ⟨written, pushed, rfl⟩
    cases pushed with
    | direct present few =>
      have number : (UInt8.ofNat payload.length).toNat = payload.length := by
        rw [UInt8.toNat_ofNat']
        omega
      rw [List.cons_append, push?_direct (by rw [UInt8.le_iff_toNat_le, number]; exact present)
        (by rw [UInt8.le_iff_toNat_le, number]; exact few), number]
      exact Octets.splitExactly?_eq_some_iff.mpr ⟨rfl, rfl⟩
    | sized known fits =>
      rw [List.cons_append, push?_sized known]
      exact sized?_eq_some_iff.mpr ⟨fits, rfl⟩

/-- Some octets can go on to any greater number of octets. -/
theorem exists_longer (front : Octets) {length : Nat} (few : front.length ≤ length) :
    ∃ payload : Octets, front <+: payload ∧ payload.length = length :=
  ⟨front ++ List.replicate (length - front.length) 0, List.prefix_append _ _, by simp; omega⟩

/-- A length or a payload that is cut short could go on to a whole payload. -/
theorem exists_whole_of_sized?_eq_none (stuck : sized? width script = none) :
    ∃ payload : Octets, payload.length < 256 ^ width ∧
      script <+: Octets.littleEndian width payload.length ++ payload ∧
      script.length < width + payload.length := by
  rw [sized?] at stuck
  split at stuck
  · rename_i split
    have missing := Octets.splitExactly?_eq_none_iff.mp split
    obtain ⟨field, leads, length⟩ := exists_longer script missing.le
    obtain ⟨payload, -, number⟩ := exists_longer [] (Nat.zero_le (Octets.ofLittleEndian field))
    obtain ⟨fits, same⟩ := Octets.eq_littleEndian_iff.mpr ⟨length, number⟩
    refine ⟨payload, fits, ?_, by omega⟩
    rw [← same]
    exact leads.trans (List.prefix_append _ _)
  · rename_i field later split
    obtain ⟨rfl, length⟩ := Octets.splitExactly?_eq_some_iff.mp split
    have missing := Octets.splitExactly?_eq_none_iff.mp stuck
    obtain ⟨payload, leads, number⟩ := exists_longer later missing.le
    obtain ⟨fits, same⟩ := Octets.eq_littleEndian_iff.mpr ⟨length, number⟩
    refine ⟨payload, fits, ?_, by rw [List.length_append]; omega⟩
    rw [← same]
    exact (List.prefix_append_right_inj field).mpr leads

theorem tail_of_push?_eq_none (stuck : push? script = none) : Tail script := by
  rcases script with _ | ⟨operation, script⟩
  · exact .nothing
  rcases operation_cases operation with ⟨present, few⟩ | ⟨width, known⟩ | unpushed
  · rw [push?_direct present few, Octets.splitExactly?_eq_none_iff] at stuck
    obtain ⟨payload, leads, length⟩ := exists_longer script stuck.le
    have same : UInt8.ofNat payload.length = operation := by rw [length, UInt8.ofNat_toNat]
    rw [UInt8.le_iff_toNat_le, ← length] at present few
    have pushed : Pushed payload (operation :: payload) := same ▸ .direct present few
    exact .cut pushed ((List.prefix_cons_inj _).mpr leads) (by simpa [length])
  · rw [push?_sized known] at stuck
    obtain ⟨payload, fits, leads, short⟩ := exists_whole_of_sized?_eq_none stuck
    apply Tail.cut (.sized known fits) ((List.prefix_cons_inj _).mpr leads)
    simp only [List.length_cons, List.length_append, Octets.length_littleEndian]
    omega
  · exact .other unpushed script

theorem Tail.push?_eq_none (tail : Tail script) : push? script = none := by
  cases tail with
  | nothing => rfl
  | other unpushed rest => exact push?_other unpushed rest
  | @cut payload written _ pushed leads short =>
    rw [Option.eq_none_iff_forall_ne_some]
    rintro ⟨other, rest⟩ found
    -- The push that is cut short would end before its end.
    obtain ⟨otherWritten, otherPushed, rfl⟩ := push?_eq_some_iff.mp found
    obtain ⟨more, rfl⟩ := leads
    have early := push?_eq_some_iff.mpr ⟨_, otherPushed, List.append_assoc _ rest more⟩
    have whole := push?_eq_some_iff.mpr ⟨_, pushed, (List.append_nil _).symm⟩
    have same := (Prod.mk.inj (Option.some.inj (early.symm.trans whole))).2
    rw [List.append_eq_nil_iff.mp same |>.2, List.append_nil] at short
    exact Nat.lt_irrefl _ short

/-- No push can be read exactly where a tail stands. -/
theorem push?_eq_none_iff : push? script = none ↔ Tail script :=
  ⟨tail_of_push?_eq_none, Tail.push?_eq_none⟩

end Push

namespace Written

variable {script tail : Octets} {payloads pushes : List Octets}

/-- The first push is read from the script, and the others are written behind it. -/
theorem push?_cons {payload push : Octets}
    (written : Written script (payload :: payloads) (push :: pushes) tail) :
    ∃ rest, script = push ++ rest ∧ push? script = some (payload, rest) ∧
      Written rest payloads pushes tail := by
  obtain ⟨rfl, pushed, ends⟩ := written
  obtain ⟨first, others⟩ := List.forall₂_cons.mp pushed
  refine ⟨pushes.flatten ++ tail, by simp, ?_, rfl, others, ends⟩
  exact push?_eq_some_iff.mpr ⟨push, first, by simp⟩

/-- Every script is written in the grammar. -/
theorem exists_written (script : Octets) :
    ∃ payloads pushes tail, Written script payloads pushes tail := by
  induction size : script.length using Nat.strongRecOn generalizing script with
  | ind bound inductionHypothesis =>
    subst size
    rcases found : push? script with _ | ⟨payload, rest⟩
    · exact ⟨[], [], script, rfl, .nil, push?_eq_none_iff.mp found⟩
    · obtain ⟨payloads, pushes, tail, whole, pushed, ends⟩ :=
        inductionHypothesis _ (length_rest_of_push? found) rest rfl
      obtain ⟨push, first, rfl⟩ := push?_eq_some_iff.mp found
      exact ⟨payload :: payloads, push :: pushes, tail, by simp [whole], .cons first pushed, ends⟩

/-- A script is written in the grammar in one way only. -/
theorem unique (written : Written script payloads pushes tail) {otherPayloads others : List Octets}
    {otherTail : Octets} (otherWritten : Written script otherPayloads others otherTail) :
    payloads = otherPayloads ∧ pushes = others ∧ tail = otherTail := by
  obtain ⟨-, pushed, -⟩ := id written
  induction pushed generalizing script otherPayloads others with
  | nil =>
    obtain ⟨rfl, -, ends⟩ := written
    obtain ⟨whole, otherPushed, -⟩ := id otherWritten
    cases otherPushed with
    | nil => exact ⟨rfl, rfl, whole⟩
    | cons first later =>
      obtain ⟨rest, -, found, -⟩ := otherWritten.push?_cons
      cases (push?_eq_none_iff.mpr ends).symm.trans found
  | cons first later inductionHypothesis =>
    obtain ⟨rest, whole, found, behind⟩ := written.push?_cons
    obtain ⟨otherWhole, otherPushed, otherEnds⟩ := id otherWritten
    cases otherPushed with
    | nil =>
      obtain rfl : script = otherTail := otherWhole
      cases (push?_eq_none_iff.mpr otherEnds).symm.trans found
    | cons otherFirst otherLater =>
      obtain ⟨otherRest, same, otherFound, otherBehind⟩ := otherWritten.push?_cons
      cases found.symm.trans otherFound
      obtain rfl := List.append_cancel_right (whole.symm.trans same)
      obtain ⟨rfl, rfl, rfl⟩ := inductionHypothesis behind otherBehind
      exact ⟨rfl, rfl, rfl⟩

/-- Gathering stops early only when enough has been gathered. -/
theorem take_flatten_pushes (written : Written script payloads pushes tail) (room : Nat) :
    (Script.pushes room script).flatten.take room = payloads.flatten.take room := by
  obtain ⟨-, pushed, -⟩ := id written
  induction pushed generalizing script room with
  | nil =>
    obtain ⟨rfl, -, ends⟩ := written
    have stuck := push?_eq_none_iff.mpr ends
    exact congrArg (·.flatten.take room) (pushes_of_push?_eq_none stuck room)
  | @cons payload push _ _ first later inductionHypothesis =>
    obtain ⟨rest, -, found, behind⟩ := written.push?_cons
    by_cases full : room = 0
    · rw [full, List.take_zero, List.take_zero]
    · rw [pushes_of_push?_eq_some found full, List.flatten_cons, List.flatten_cons, List.take_append,
        List.take_append, inductionHypothesis behind]

theorem embeddedData?_eq (written : Written script payloads pushes tail) (limit : Nat) :
    embeddedData? limit (dataMark :: script) = some (payloads.flatten.take limit) := by
  rw [embeddedData?, if_pos rfl, written.take_flatten_pushes]

end Written

theorem embeddedData?_of_unmarked {script : Octets} (unmarked : script.head? ≠ some dataMark)
    (limit : Nat) : embeddedData? limit script = none := by
  cases script with
  | nil => rfl
  | cons operation rest => exact if_neg fun same => unmarked (congrArg some same)

/-- The data embedded in a script are the first octets of what it pushes behind its data mark. It is
written in pushes and a tail in exactly one way, and without the mark no data are embedded. So fewer
of the data are the first ones of more. -/
theorem embeddedData?_written :
    (∀ script payloads pushes tail limit, Written script payloads pushes tail →
      embeddedData? limit (dataMark :: script) = some (payloads.flatten.take limit)) ∧
    (∀ script, ∃! parts : List Octets × List Octets × Octets,
      Written script parts.1 parts.2.1 parts.2.2) ∧
    (∀ script limit, script.head? ≠ some dataMark → embeddedData? limit script = none) ∧
    ∀ script fewer limit, fewer ≤ limit →
      embeddedData? fewer script = (embeddedData? limit script).map (·.take fewer) := by
  refine ⟨fun _ _ _ _ limit written => written.embeddedData?_eq limit, fun script => ?_,
    fun _ limit unmarked => embeddedData?_of_unmarked unmarked limit, ?_⟩
  · obtain ⟨payloads, pushes, tail, written⟩ := Written.exists_written script
    refine ⟨(payloads, pushes, tail), written, ?_⟩
    rintro ⟨otherPayloads, others, otherTail⟩ otherWritten
    obtain ⟨rfl, rfl, rfl⟩ := written.unique otherWritten
    rfl
  · intro script fewer limit less
    by_cases marked : script.head? = some dataMark
    · obtain ⟨rest, rfl⟩ := List.head?_eq_some_iff.mp marked
      obtain ⟨payloads, pushes, tail, written⟩ := Written.exists_written rest
      rw [written.embeddedData?_eq, written.embeddedData?_eq, Option.map_some, List.take_take,
        Nat.min_eq_left less]
    · rw [embeddedData?_of_unmarked marked, embeddedData?_of_unmarked marked]
      rfl

/-- Pushes in three forms, one of them of nothing, and a push without all of its length. -/
theorem embeddedData?_threeForms :
    Written [2, 0xde, 0xad, 0x4c, 0, 0x4d, 2, 0, 0xbe, 0xef, 0x4e, 5, 0]
        [[0xde, 0xad], [], [0xbe, 0xef]] [[2, 0xde, 0xad], [0x4c, 0], [0x4d, 2, 0, 0xbe, 0xef]]
        [0x4e, 5, 0] ∧
      embeddedData? 3 [0x6a, 2, 0xde, 0xad, 0x4c, 0, 0x4d, 2, 0, 0xbe, 0xef, 0x4e, 5, 0] =
        some [0xde, 0xad, 0xbe] ∧
      embeddedData? 1 [0x6a, 2, 0xde, 0xad, 0x4c, 0, 0x4d, 2, 0, 0xbe, 0xef, 0x4e, 5, 0] =
        some [0xde] ∧
      embeddedData? 3 [0x76, 2, 0xde, 0xad] = none := by
  have cut : Pushed [1, 2, 3, 4, 5] [0x4e, 5, 0, 0, 0, 1, 2, 3, 4, 5] :=
    @Pushed.sized 0x4e 4 [1, 2, 3, 4, 5] (by decide) (by decide)
  have written : Written [2, 0xde, 0xad, 0x4c, 0, 0x4d, 2, 0, 0xbe, 0xef, 0x4e, 5, 0]
      [[0xde, 0xad], [], [0xbe, 0xef]] [[2, 0xde, 0xad], [0x4c, 0], [0x4d, 2, 0, 0xbe, 0xef]]
      [0x4e, 5, 0] :=
    ⟨rfl, .cons (.direct (by decide) (by decide))
      (.cons (@Pushed.sized 0x4c 1 [] (by decide) (by decide))
        (.cons (@Pushed.sized 0x4d 2 [0xbe, 0xef] (by decide) (by decide)) .nil)),
      .cut cut (by decide) (by decide)⟩
  obtain ⟨data, -, unmarked, shorter⟩ := embeddedData?_written
  have three := data _ _ _ _ 3 written
  refine ⟨written, three, ?_, unmarked _ 3 (by decide)⟩
  exact (shorter _ 1 3 (by decide)).trans (congrArg (Option.map (·.take 1)) three)

end CashHerald.Ledger.Script
