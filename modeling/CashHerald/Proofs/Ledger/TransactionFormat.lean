import CashHerald.Ledger.Transaction
import CashHerald.Proofs.Ledger.Counted

/-!
The wire format of a transaction. Main statement: octets are decoded exactly if they are written in
the format, and the transaction is then named by them.
-/

namespace CashHerald.Ledger

namespace Input

/-- An outpoint, a script behind its length and a sequence number. -/
def Written : Format Input := fun input octets =>
  ∃ script, Sized input.script script ∧ input.previousId.length = 32 ∧
    octets = input.previousId ++ Octets.littleEndian 4 input.previousIndex.toNat ++ script ++
      Octets.littleEndian 4 input.sequence.toNat

theorem reads_decoder : decoder.Reads Written := by
  apply ((Decoder.reads_take 32).bind fun previousId => Decoder.reads_word32.bind
    fun previousIndex => CompactSize.reads_octets.bind fun script =>
      Decoder.reads_word32.map (Input.mk previousId previousIndex script)).congr
  intro input octets
  constructor
  · intro read
    obtain ⟨previousId, _, _, rfl, ⟨rfl, length⟩, previousIndex, _, _, rfl, rfl, script, field, _,
      rfl, sized, sequence, rfl, rfl⟩ := read
    exact ⟨field, sized, length, by simp only [List.append_assoc]⟩
  · intro written
    obtain ⟨field, sized, length, rfl⟩ := written
    exact ⟨input.previousId, _, _, by simp only [List.append_assoc], ⟨rfl, length⟩,
      input.previousIndex, _, _, rfl, rfl, input.script, field, _, rfl, sized, input.sequence, rfl, rfl⟩

/-- No input takes less than the count of inputs expects. -/
theorem smallest_le_length {input : Input} {octets : Octets} (written : Written input octets) :
    smallest ≤ octets.length := by
  obtain ⟨field, sized, length, rfl⟩ := written
  have least := one_le_length_of_sized sized
  simp only [List.length_append, Octets.length_littleEndian, length, smallest]
  omega

end Input

namespace Output

/-- A value and a script behind its length. -/
def Written : Format Output := fun output octets =>
  ∃ script, Sized output.script script ∧
    octets = Octets.littleEndian 8 output.value.toNat ++ script

/-- An output keeps the template that its script has. -/
def Classified (output : Output) : Prop :=
  output.template = Script.template output.script

theorem reads_decoder :
    decoder.Reads fun output octets => Classified output ∧ Written output octets := by
  apply (Decoder.reads_word64.bind fun value => CompactSize.reads_octets.map (locking value)).congr
  intro output octets
  constructor
  · intro read
    obtain ⟨value, _, field, rfl, rfl, script, sized, rfl⟩ := read
    exact ⟨rfl, field, sized, rfl⟩
  · intro written
    obtain ⟨classified, field, sized, rfl⟩ := written
    refine ⟨output.value, _, field, rfl, rfl, output.script, sized, ?_⟩
    rw [locking, ← classified]

/-- No output takes less than the count of outputs expects. -/
theorem smallest_le_length {output : Output} {octets : Octets} (written : Written output octets) :
    smallest ≤ octets.length := by
  obtain ⟨field, sized, rfl⟩ := written
  have least := one_le_length_of_sized sized
  simp only [List.length_append, Octets.length_littleEndian, smallest]
  omega

end Output

namespace Transaction

/-- A version, the inputs and the outputs behind their counts, and a lock time. -/
def Written : Format Transaction := fun transaction octets =>
  ∃ inputs outputs, Listed Input.Written transaction.inputs inputs ∧
    Listed Output.Written transaction.outputs outputs ∧
    octets = Octets.littleEndian 4 transaction.version.toNat ++ inputs ++ outputs ++
      Octets.littleEndian 4 transaction.lockTime.toNat

/-- The octets name the transaction that is written in them. -/
def Recorded : Format Transaction := fun transaction octets =>
  Written transaction octets ∧ transaction.identifier = Sha256.double octets ∧
    ∀ output ∈ transaction.outputs, output.Classified

/-- The transaction under the name that its octets give it. -/
def named (octets : Octets) (transaction : Transaction) : Transaction :=
  { transaction with identifier := Sha256.double octets }

/-- Reads one transaction and leaves it without a name. -/
def unnamed : Decoder Transaction := do
  let version ← Decoder.word32
  let inputs ← CompactSize.list Input.smallest Input.decoder
  let outputs ← CompactSize.list Output.smallest Output.decoder
  let lockTime ← Decoder.word32
  pure ⟨[], version, inputs, outputs, lockTime⟩

theorem decoder_eq : decoder = (do
    let first ← get
    let transaction ← unnamed
    let last ← get
    pure (named (first.segment last) transaction)) := by
  simp only [decoder, unnamed, named, bind_assoc, pure_bind]

theorem reads_unnamed :
    unnamed.Reads fun transaction octets => transaction.identifier = [] ∧
      Written transaction octets ∧ ∀ output ∈ transaction.outputs, output.Classified := by
  have inputs := CompactSize.reads_list Input.reads_decoder (show 0 < Input.smallest by decide)
    fun _ _ => Input.smallest_le_length
  have outputs := CompactSize.reads_list Output.reads_decoder (show 0 < Output.smallest by decide)
    fun _ _ written => Output.smallest_le_length written.2
  apply (Decoder.reads_word32.bind fun version => inputs.bind fun inputs => outputs.bind
    fun outputs => Decoder.reads_word32.map (Transaction.mk [] version inputs outputs)).congr
  intro transaction octets
  constructor
  · intro read
    obtain ⟨version, _, _, rfl, rfl, inputs, inputOctets, _, rfl, inputsWritten, outputs,
      outputOctets, _, rfl, outputsWritten, lockTime, rfl, rfl⟩ := read
    obtain ⟨classified, outputsWritten⟩ := listed_and_iff.mp outputsWritten
    exact ⟨rfl, ⟨inputOctets, outputOctets, inputsWritten, outputsWritten,
      by simp only [List.append_assoc]⟩, classified⟩
  · intro written
    obtain ⟨nameless, ⟨inputOctets, outputOctets, inputsWritten, outputsWritten, rfl⟩, classified⟩ :=
      written
    refine ⟨transaction.version, _, _, by simp only [List.append_assoc], rfl, transaction.inputs,
      inputOctets, _, rfl, inputsWritten, transaction.outputs, outputOctets, _, rfl,
      listed_and_iff.mpr ⟨classified, outputsWritten⟩, transaction.lockTime, rfl, ?_⟩
    rw [← nameless]

/-- The decoder reads a transaction where its octets stand and names it by them. -/
theorem reads_decoder : decoder.Reads Recorded := by
  rw [decoder_eq]
  apply (reads_unnamed.keeping named).congr
  intro transaction octets
  constructor
  · intro kept
    obtain ⟨fields, ⟨-, written, classified⟩, rfl⟩ := kept
    exact ⟨written, rfl, classified⟩
  · intro recorded
    obtain ⟨written, name, classified⟩ := recorded
    refine ⟨{ transaction with identifier := [] }, ⟨rfl, written, classified⟩, ?_⟩
    rw [named, ← name]

/-- No transaction takes less than the count of transactions expects. -/
theorem smallest_le_length {transaction : Transaction} {octets : Octets}
    (recorded : Recorded transaction octets) : smallest ≤ octets.length := by
  obtain ⟨⟨inputs, outputs, inputsWritten, outputsWritten, rfl⟩, -⟩ := recorded
  have leastInputs := one_le_length_of_listed inputsWritten
  have leastOutputs := one_le_length_of_listed outputsWritten
  simp only [List.length_append, Octets.length_littleEndian, smallest]
  omega

/-- Octets are decoded exactly if they record the transaction from their start to their end. -/
theorem decode_eq_ok_iff_recorded {raw : Octets} {transaction : Transaction} :
    decode raw = .ok transaction ↔ Recorded transaction raw := by
  have read := reads_decoder (.start raw)
  constructor
  · intro decoded
    unfold decode at decoded
    cases outcome : decoder (.start raw) with
    | error reason =>
      rw [outcome] at decoded
      cases decoded
    | ok result =>
      obtain ⟨found, last⟩ := result
      obtain ⟨octets, leads, recorded, rfl⟩ := (read found last).mp outcome
      rw [outcome] at decoded
      change (if raw.length - octets.length = 0 then _ else _) = _ at decoded
      split at decoded
      · rename_i nothingLeft
        cases decoded
        have whole : octets = raw :=
          leads.eq_of_length_le (Nat.le_of_sub_eq_zero nothingLeft)
        rw [← whole]
        exact recorded
      · cases decoded
  · intro recorded
    have outcome := (read transaction _).mpr ⟨raw, List.prefix_refl raw, recorded, rfl⟩
    unfold decode
    rw [outcome]
    change (if raw.length - raw.length = 0 then _ else _) = _
    rw [if_pos (Nat.sub_self raw.length)]
    rfl

/-- Octets that are written in the format name a transaction. -/
theorem exists_recorded {transaction : Transaction} {raw : Octets}
    (written : Written transaction raw) : ∃ recorded, Recorded recorded raw := by
  obtain ⟨inputs, outputs, inputsWritten, outputsWritten, whole⟩ := written
  let classified := transaction.outputs.map fun output => Output.locking output.value output.script
  have sameOctets : Listed Output.Written classified outputs := by
    obtain ⟨size, parts, announced, each, rfl⟩ := outputsWritten
    refine ⟨size, parts, ?_, List.forall₂_map_left_iff.mpr each, rfl⟩
    rw [List.length_map]
    exact announced
  refine ⟨⟨Sha256.double raw, transaction.version, transaction.inputs, classified,
    transaction.lockTime⟩, ⟨inputs, outputs, inputsWritten, sameOctets, whole⟩, rfl, ?_⟩
  intro output member
  obtain ⟨original, -, rfl⟩ := List.mem_map.mp member
  rfl

/-- Octets are decoded exactly if they are written in the format, with every number in any of its
forms, and nothing stands behind them. The transaction is named by their double hash and its outputs
keep the templates of their scripts. -/
theorem decode_eq_ok_iff_written (raw : Octets) :
    (∀ transaction, decode raw = .ok transaction ↔
      Written transaction raw ∧ transaction.identifier = Sha256.double raw ∧
        ∀ output ∈ transaction.outputs, output.template = Script.template output.script) ∧
    ((∃ transaction, decode raw = .ok transaction) ↔ ∃ transaction, Written transaction raw) := by
  constructor
  · intro transaction
    exact decode_eq_ok_iff_recorded
  · constructor
    · intro accepted
      obtain ⟨transaction, decoded⟩ := accepted
      have recorded := decode_eq_ok_iff_recorded.mp decoded
      exact ⟨transaction, recorded.1⟩
    · intro wellFormed
      obtain ⟨transaction, written⟩ := wellFormed
      obtain ⟨recorded, holds⟩ := exists_recorded written
      exact ⟨recorded, decode_eq_ok_iff_recorded.mpr holds⟩

end Transaction

end CashHerald.Ledger
