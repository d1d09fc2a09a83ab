import CashHerald.Proofs.Ledger.Offsets
import CashHerald.Proofs.Ledger.TransactionFormat

/-!
Transactions that are cut short or go on behind their end. Main statement: a front of a transaction
is refused because octets are missing or because a number that is written in the transaction promises
more than is left, and what stands behind a transaction is counted; an offset at which octets are
missing is a true one.
-/

namespace CashHerald.Ledger

/-- A fault of octets that are cut short: a field is missing, or one of some numbers promises more
than is left. -/
inductive DecodeError.Short (numbers : List Nat) : DecodeError → Prop
  | unexpectedEnd (offset needed : Nat) : Short numbers (.unexpectedEnd offset needed)
  | lengthOverflow {number : Nat} (announced : number ∈ numbers) :
    Short numbers (.lengthOverflow number)

namespace Decoder

variable {Value Other : Type} {numbers : List Nat}

/-- A decoder notices that the octets of a value are cut short, and blames none but some numbers for
it. -/
def Notices (decoder : Decoder Value) (format : Format Value) (numbers : List Nat) : Prop :=
  ∀ value octets cursor, format value octets → cursor.rest <+: octets →
    cursor.rest.length < octets.length → ∃ reason, decoder cursor = .error reason ∧ reason.Short numbers

/-- A field is missing if not all of it is left. -/
theorem notices_take (count : Nat) :
    (take count).Notices (fun field octets => field = octets ∧ octets.length = count) numbers := by
  rintro _ octets cursor ⟨-, length⟩ - short
  refine ⟨_, if_pos ?_, .unexpectedEnd cursor.position count⟩
  rw [cursor.remaining_eq, ← length]
  exact short

/-- Nothing is cut short of a value that takes no octets. -/
theorem notices_pure (value : Value) :
    Notices (pure value) (fun result octets => result = value ∧ octets = []) numbers := by
  rintro _ octets cursor ⟨-, rfl⟩ - short
  exact absurd short (Nat.not_lt_zero _)

namespace Notices

variable {first : Decoder Value} {second : Value → Decoder Other} {format narrower : Format Value}
  {formats : Value → Format Other}

theorem mono (notices : first.Notices format numbers)
    (implies : ∀ value octets, narrower value octets → format value octets) :
    first.Notices narrower numbers :=
  fun value octets cursor written => notices value octets cursor (implies value octets written)

/-- Of two parts the first is cut short, or it is read and the second is cut short. -/
theorem bind (notices : first.Notices narrower numbers) (reads : first.Reads format)
    (implies : ∀ value octets, narrower value octets → format value octets)
    (later : ∀ value, (second value).Notices (formats value) numbers) :
    (first >>= second).Notices (fun result octets => ∃ value front back,
      octets = front ++ back ∧ narrower value front ∧ formats value result back) numbers := by
  rintro result _ cursor ⟨value, front, back, rfl, written, behind⟩ leads short
  rcases Nat.lt_or_ge cursor.rest.length front.length with within | past
  · have cut := List.prefix_of_prefix_length_le leads (List.prefix_append front back) within.le
    obtain ⟨reason, failed, blames⟩ := notices _ _ cursor written cut within
    exact ⟨reason, bind_of_error failed second, blames⟩
  · have whole := List.prefix_of_prefix_length_le (List.prefix_append front back) leads past
    obtain ⟨rest, same⟩ := whole
    rw [← same, List.prefix_append_right_inj] at leads
    rw [← same, List.length_append, List.length_append, Nat.add_lt_add_iff_left] at short
    have read := (reads cursor value _).mpr ⟨front, ⟨rest, same⟩, implies _ _ written, rfl⟩
    have left : (cursor.advance front.length).rest = rest := by
      rw [Cursor.rest_advance, ← same, List.drop_left]
    obtain ⟨reason, failed, blames⟩ :=
      later value _ _ (cursor.advance front.length) behind (left.symm ▸ leads) (left.symm ▸ short)
    exact ⟨reason, (bind_of_ok read second).trans failed, blames⟩

theorem map (notices : first.Notices format numbers) (make : Value → Other) :
    Notices (first >>= fun value => pure (make value))
      (fun result octets => ∃ value, format value octets ∧ result = make value) numbers := by
  rintro _ octets cursor ⟨value, written, -⟩ leads short
  obtain ⟨reason, failed, blames⟩ := notices _ _ cursor written leads short
  exact ⟨reason, bind_of_error failed _, blames⟩

theorem keeping (notices : first.Notices format numbers) (make : Octets → Value → Other) :
    Notices (do
        let start ← get
        let value ← first
        let last ← get
        pure (make (start.segment last) value))
      (fun result octets => ∃ value, format value octets ∧ result = make octets value) numbers := by
  rintro _ octets cursor ⟨value, written, -⟩ leads short
  obtain ⟨reason, failed, blames⟩ := notices _ _ cursor written leads short
  exact ⟨reason, (bind_of_ok rfl _).trans (bind_of_error failed _), blames⟩

/-- Of items one behind the other one is cut short, and those in front of it are read. -/
theorem items (notices : first.Notices narrower numbers) (reads : first.Reads format)
    (implies : ∀ value octets, narrower value octets → format value octets) (count : Nat) :
    (Decoder.items first count).Notices (fun values octets => values.length = count ∧
      ∃ parts, List.Forall₂ narrower values parts ∧ octets = parts.flatten) numbers := by
  induction count with
  | zero =>
    rintro values octets cursor ⟨none, parts, written, rfl⟩ leads short
    obtain rfl := List.eq_nil_of_length_eq_zero none
    cases written
    cases short
  | succ count inductionHypothesis =>
    rw [items_succ]
    apply (notices.bind reads implies fun value => inductionHypothesis.map (value :: ·)).mono
    rintro values octets ⟨number, parts, written, rfl⟩
    cases written with
    | nil => cases number
    | cons first others =>
      exact ⟨_, _, _, rfl, first, _, ⟨Nat.succ.inj number, _, others, rfl⟩, rfl⟩

end Notices

/-- A number in a field of its own is cut short like the field. -/
theorem notices_number (width : Nat) :
    (number width).Notices
      (fun value octets => value < 256 ^ width ∧ octets = Octets.littleEndian width value)
      numbers := by
  apply ((notices_take width).map Octets.ofLittleEndian).mono
  intro value octets written
  obtain ⟨length, same⟩ := Octets.eq_littleEndian_iff.mp written
  exact ⟨octets, ⟨rfl, length⟩, same⟩

theorem notices_word32 :
    word32.Notices (fun word octets => octets = Octets.littleEndian 4 word.toNat) numbers := by
  apply ((notices_number 4).map UInt32.ofNat).mono
  intro word octets written
  exact ⟨word.toNat, ⟨word.toNat_lt, written⟩, UInt32.ofNat_toNat.symm⟩

theorem notices_word64 :
    word64.Notices (fun word octets => octets = Octets.littleEndian 8 word.toNat) numbers := by
  apply ((notices_number 8).map UInt64.ofNat).mono
  intro word octets written
  exact ⟨word.toNat, ⟨word.toNat_lt, written⟩, UInt64.ofNat_toNat.symm⟩

end Decoder

namespace CompactSize

open Decoder

variable {numbers : List Nat}

theorem notices_announced (first : Nat) :
    Decoder.Notices
      (match width? (UInt8.ofNat first) with
        | none => pure first
        | some width => Decoder.number width)
      (Announced first) numbers := by
  unfold Announced
  cases width? (UInt8.ofNat first) with
  | none => exact notices_pure first
  | some width => exact Decoder.notices_number width

/-- A number in any of its forms may be cut short in front of its first octet or behind it. -/
theorem notices_number : number.Notices Written numbers := by
  apply ((Decoder.notices_number 1).bind (Decoder.reads_number 1) (fun _ _ => id)
    notices_announced).mono
  exact fun _ _ => announced_iff_written.mpr

/-- A number that passes no check is blamed if it is one of those that are written. -/
theorem notices_checked {Other : Type} {limit : Nat → Nat} {next : Nat → Decoder Other}
    {formats : Nat → Format Other}
    (later : ∀ announced, (next announced).Notices (formats announced) numbers) :
    (checked limit >>= next).Notices (fun result octets => ∃ announced front back,
      octets = front ++ back ∧ Written announced front ∧
        announced ∈ numbers ∧ formats announced result back) numbers := by
  rw [checked_eq, bind_assoc]
  apply notices_number.bind reads_number (fun _ _ => id)
  rintro announced result octets cursor ⟨mem, written⟩ leads short
  by_cases much : announced > limit cursor.rest.length
  · have refused : within limit announced cursor = .error (.lengthOverflow announced) := by
      rw [within_eq, if_pos much]
    exact ⟨_, bind_of_error refused next, .lengthOverflow mem⟩
  · have passed : within limit announced cursor = .ok (announced, cursor) := by
      rw [within_eq, if_neg much]
    obtain ⟨reason, failed, blames⟩ := later announced _ _ cursor written leads short
    exact ⟨reason, (bind_of_ok passed next).trans failed, blames⟩

theorem notices_octets :
    octets.Notices (fun content octets => content.length ∈ numbers ∧ Sized content octets)
      numbers := by
  apply (notices_checked notices_take).mono
  rintro content _ ⟨mem, size, written, rfl⟩
  exact ⟨content.length, size, content, rfl, written, mem, rfl, rfl⟩

theorem notices_list {Value : Type} {item : Decoder Value} {format narrower : Format Value}
    (notices : item.Notices narrower numbers) (reads : item.Reads format)
    (implies : ∀ value octets, narrower value octets → format value octets) (smallest : Nat) :
    (list smallest item).Notices
      (fun values octets => values.length ∈ numbers ∧ Listed narrower values octets) numbers := by
  apply (notices_checked (notices.items reads implies)).mono
  rintro values _ ⟨mem, size, parts, written, others, rfl⟩
  exact ⟨values.length, size, _, rfl, written, mem, rfl, parts, others, rfl⟩

end CompactSize

variable (numbers : List Nat)

theorem Input.notices_decoder :
    decoder.Notices (fun input octets => input.script.length ∈ numbers ∧ Written input octets)
      numbers := by
  apply ((Decoder.notices_take 32).bind (Decoder.reads_take 32) (fun _ _ => id) fun previousId =>
    Decoder.notices_word32.bind Decoder.reads_word32 (fun _ _ => id) fun previousIndex =>
      CompactSize.notices_octets.bind CompactSize.reads_octets (fun _ _ => And.right) fun script =>
        Decoder.notices_word32.map (Input.mk previousId previousIndex script)).mono
  rintro input _ ⟨mem, field, sized, length, rfl⟩
  exact ⟨input.previousId, _, _, by simp only [List.append_assoc], ⟨rfl, length⟩,
    input.previousIndex, _, _, rfl, rfl, input.script, field, _, rfl, ⟨mem, sized⟩, input.sequence,
    rfl, rfl⟩

theorem Output.notices_decoder :
    decoder.Notices
      (fun output octets => output.script.length ∈ numbers ∧ Classified output ∧ Written output octets)
      numbers := by
  apply (Decoder.notices_word64.bind Decoder.reads_word64 (fun _ _ => id) fun value =>
    CompactSize.notices_octets.map (locking value)).mono
  rintro output _ ⟨mem, classified, field, sized, rfl⟩
  refine ⟨output.value, _, field, rfl, rfl, output.script, ⟨mem, sized⟩, ?_⟩
  rw [locking, ← classified]

namespace Transaction

/-- The numbers that are written in a transaction: how many inputs it has, how long the script of
each of them is, and the same of its outputs. -/
def announced (transaction : Transaction) : List Nat :=
  transaction.inputs.length :: transaction.inputs.map (·.script.length) ++
    transaction.outputs.length :: transaction.outputs.map (·.script.length)

theorem notices_unnamed :
    unnamed.Notices (fun transaction octets => transaction.announced ⊆ numbers ∧
      transaction.identifier = [] ∧ Written transaction octets ∧
        ∀ output ∈ transaction.outputs, output.Classified) numbers := by
  have inputs := CompactSize.notices_list (Input.notices_decoder numbers)
    Input.reads_decoder (fun _ _ => And.right) Input.smallest
  have readsInputs := CompactSize.reads_list Input.reads_decoder (show 0 < Input.smallest by decide)
    fun _ _ => Input.smallest_le_length
  have outputs := CompactSize.notices_list (Output.notices_decoder numbers)
    Output.reads_decoder (fun _ _ => And.right) Output.smallest
  have readsOutputs := CompactSize.reads_list Output.reads_decoder
    (show 0 < Output.smallest by decide) fun _ _ written => Output.smallest_le_length written.2
  apply (Decoder.notices_word32.bind Decoder.reads_word32 (fun _ _ => id) fun version =>
    inputs.bind readsInputs (fun _ _ written => (listed_and_iff.mp written.2).2) fun inputs =>
      outputs.bind readsOutputs (fun _ _ written => (listed_and_iff.mp written.2).2) fun outputs =>
        Decoder.notices_word32.map (mk [] version inputs outputs)).mono
  rintro transaction _ ⟨listed, nameless, ⟨inputOctets, outputOctets, inputsWritten, outputsWritten,
    rfl⟩, classified⟩
  simp only [announced, List.append_subset, List.cons_subset] at listed
  obtain ⟨⟨inputCount, inputScripts⟩, outputCount, outputScripts⟩ := listed
  refine ⟨transaction.version, _, _, by simp only [List.append_assoc], rfl, transaction.inputs,
    inputOctets, _, rfl, ⟨inputCount, listed_and_iff.mpr ⟨?_, inputsWritten⟩⟩, transaction.outputs,
    outputOctets, _, rfl, ⟨outputCount, listed_and_iff.mpr ⟨?_, ?_⟩⟩, transaction.lockTime, rfl, ?_⟩
  · exact fun input mem => inputScripts (List.mem_map_of_mem mem)
  · exact fun output mem => outputScripts (List.mem_map_of_mem mem)
  · exact listed_and_iff.mpr ⟨classified, outputsWritten⟩
  · rw [← nameless]

/-- A transaction that is cut short is noticed, and none but its own numbers are blamed. -/
theorem notices_decoder :
    decoder.Notices (fun transaction octets => transaction.announced ⊆ numbers ∧
      Recorded transaction octets) numbers := by
  rw [decoder_eq]
  apply ((notices_unnamed numbers).keeping named).mono
  rintro transaction octets ⟨listed, written, name, classified⟩
  refine ⟨{ transaction with identifier := [] }, ⟨listed, rfl, written, classified⟩, ?_⟩
  rw [named, ← name]

section Decode

variable {raw : Octets} {transaction : Transaction}

/-- A front of a transaction is no transaction. -/
theorem decode_front (decoded : decode raw = .ok transaction) {front : Octets} (leads : front <+: raw)
    (cut : front ≠ raw) :
    ∃ reason, decode front = .error reason ∧ reason.Short transaction.announced := by
  have recorded := decode_eq_ok_iff_recorded.mp decoded
  have short : front.length < raw.length :=
    Nat.lt_of_le_of_ne leads.length_le fun same => cut (leads.eq_of_length same)
  obtain ⟨reason, failed, blames⟩ :=
    notices_decoder _ transaction raw (.start front) ⟨List.Subset.refl _, recorded⟩ leads short
  refine ⟨reason, ?_, blames⟩
  unfold decode
  rw [failed]
  rfl

/-- What stands behind a transaction is counted. -/
theorem decode_append (decoded : decode raw = .ok transaction) {more : Octets} (some : more ≠ []) :
    decode (raw ++ more) = .error (.trailingOctets more.length) := by
  have recorded := decode_eq_ok_iff_recorded.mp decoded
  have read := (reads_decoder (.start (raw ++ more)) transaction _).mpr
    ⟨raw, List.prefix_append raw more, recorded, rfl⟩
  have left : ((Cursor.start (raw ++ more)).advance raw.length).remaining = more.length := by
    simp [Cursor.start, Cursor.advance]
  unfold decode
  rw [read]
  change (if ((Cursor.start (raw ++ more)).advance raw.length).remaining = 0 then _ else _) = _
  rw [left, if_neg (List.length_pos_of_ne_nil some).ne']
  rfl

end Decode

/-- A transaction with something behind it is refused with the number of octets that stand behind
it, and a proper front of a transaction because octets are missing or because one of the numbers in
the transaction promises more than is left. Whatever the octets of a transaction or a block are, an
offset at which some are missing is not behind their end, and the missing field ends behind it. -/
theorem decode_true_faults :
    (∀ raw transaction, decode raw = .ok transaction →
      (∀ more, more ≠ [] → decode (raw ++ more) = .error (.trailingOctets more.length)) ∧
      ∀ front, front <+: raw → front ≠ raw →
        (∃ offset needed, decode front = .error (.unexpectedEnd offset needed)) ∨
          ∃ number ∈ transaction.announced, decode front = .error (.lengthOverflow number)) ∧
    ∀ raw offset needed,
      decode raw = .error (.unexpectedEnd offset needed) ∨
          Block.decode raw = .error (.unexpectedEnd offset needed) →
        offset ≤ raw.length ∧ raw.length < offset + needed := by
  refine ⟨fun raw transaction decoded => ⟨fun more => decode_append decoded, ?_⟩, ?_⟩
  · intro front leads cut
    obtain ⟨reason, refused, blames⟩ := decode_front decoded leads cut
    cases blames with
    | unexpectedEnd offset needed => exact .inl ⟨offset, needed, refused⟩
    | lengthOverflow announced => exact .inr ⟨_, announced, refused⟩
  · rintro raw offset needed (refused | refused)
    · exact trueOf_of_decode refused
    · exact Block.trueOf_of_decode refused

/-- A transaction of one output: cut in its count of outputs, cut behind it, and with an octet more.
-/
theorem decode_true_faults_oneOutput :
    let raw : Octets := [1, 0, 0, 0, 0, 1, 5, 0, 0, 0, 0, 0, 0, 0, 2, 0x6a, 0, 0, 0, 0, 0]
    let transaction : Transaction :=
      ⟨Sha256.double raw, 1, [], [Output.locking 5 [0x6a, 0]], 0⟩
    decode raw = .ok transaction ∧
      decode (raw ++ [7]) = .error (.trailingOctets 1) ∧
      ((∃ offset needed, decode (raw.take 15) = .error (.unexpectedEnd offset needed)) ∨
        ∃ number ∈ transaction.announced, decode (raw.take 15) = .error (.lengthOverflow number)) ∧
      decode (raw.take 3) = .error (.unexpectedEnd 0 4) ∧ 0 ≤ 3 ∧ 3 < 0 + 4 := by
  intro raw transaction
  have script : Sized [0x6a, 0] [2, 0x6a, 0] := ⟨[2], .one (by decide), rfl⟩
  have noInput : Listed Input.Written [] [0] := ⟨[0], [], .one (by decide), .nil, rfl⟩
  have oneOutput : Listed Output.Written transaction.outputs
      [1, 5, 0, 0, 0, 0, 0, 0, 0, 2, 0x6a, 0] :=
    ⟨[1], [[5, 0, 0, 0, 0, 0, 0, 0, 2, 0x6a, 0]], .one (by decide),
      .cons ⟨[2, 0x6a, 0], script, by decide⟩ .nil, by decide⟩
  have decoded : decode raw = .ok transaction := decode_eq_ok_iff_recorded.mpr
    ⟨⟨[0], _, noInput, oneOutput, by decide⟩, rfl, fun output mem => by
      rw [List.mem_singleton.mp mem]
      rfl⟩
  have missing : decode (raw.take 3) = .error (.unexpectedEnd 0 4) := by rfl
  obtain ⟨faults, offsets⟩ := decode_true_faults
  obtain ⟨behind, cut⟩ := faults raw transaction decoded
  exact ⟨decoded, behind [7] (by decide), cut _ (List.take_prefix 15 raw) (by decide), missing,
    offsets _ 0 4 (.inl missing)⟩

end Transaction

end CashHerald.Ledger
