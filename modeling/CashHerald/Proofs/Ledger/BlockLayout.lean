import CashHerald.Ledger.Block
import CashHerald.Proofs.Ledger.TransactionFormat

/-!
The layout of a block's octets. Main statement: a block is decoded exactly if its octets can be cut
into a header, a count, segments that decode as transactions by themselves and a rest, and there is
only one such cut.
-/

namespace CashHerald.Ledger

namespace Header

/-- The fields of a header, one behind the other. -/
def Written : Format Header := fun header octets =>
  header.previousHash.length = 32 ∧ header.merkleRoot.length = 32 ∧
    octets = Octets.littleEndian 4 header.version.toNat ++ header.previousHash ++
      header.merkleRoot ++ Octets.littleEndian 4 header.time.toNat ++
      Octets.littleEndian 4 header.bits.toNat ++ Octets.littleEndian 4 header.nonce.toNat

/-- The octets of a word stand at its offset. -/
theorem littleEndian_wordAt {octets : Octets} {offset : Nat} (inside : offset + 4 ≤ octets.length) :
    Octets.littleEndian 4 (wordAt octets offset).toNat = (octets.drop offset).take 4 := by
  have length : ((octets.drop offset).take 4).length = 4 := by
    rw [List.length_take, List.length_drop]
    omega
  have field := Octets.eq_littleEndian_iff.mpr ⟨length, rfl⟩
  rw [wordAt, UInt32.toNat_ofNat_of_lt' field.1]
  exact field.2.symm

theorem written_ofOctets {octets : Octets} (length : octets.length = size) :
    Written (ofOctets octets) octets := by
  have eighty : octets.length = 80 := length
  refine ⟨by simp [ofOctets, eighty], by simp [ofOctets, eighty], ?_⟩
  simp only [ofOctets]
  rw [littleEndian_wordAt (by omega), littleEndian_wordAt (by omega), littleEndian_wordAt (by omega),
    littleEndian_wordAt (by omega), List.drop_zero]
  simp only [← List.take_add]
  exact (List.take_of_length_le (by omega)).symm

theorem littleEndian_word_inj {word other : UInt32}
    (same : Octets.littleEndian 4 word.toNat = Octets.littleEndian 4 other.toNat) : word = other :=
  (Decoder.reads_word32.unique rfl rfl (congrArg (· ++ []) same)).1

/-- The fields have fixed widths, so octets hold the fields of one header only. -/
theorem eq_of_written {header other : Header} {octets : Octets} (written : Written header octets)
    (otherWritten : Written other octets) : header = other := by
  obtain ⟨previous, root, rfl⟩ := written
  obtain ⟨otherPrevious, otherRoot, same⟩ := otherWritten
  obtain ⟨same, nonce⟩ := List.append_inj' same (by simp)
  obtain ⟨same, bits⟩ := List.append_inj' same (by simp)
  obtain ⟨same, time⟩ := List.append_inj' same (by simp)
  obtain ⟨same, merkleRoot⟩ := List.append_inj' same (root.trans otherRoot.symm)
  obtain ⟨version, previousHash⟩ := List.append_inj' same (previous.trans otherPrevious.symm)
  cases header
  cases other
  congr
  · exact littleEndian_word_inj version
  · exact littleEndian_word_inj time
  · exact littleEndian_word_inj bits
  · exact littleEndian_word_inj nonce

/-- The fields at their offsets are those that stand one behind the other. -/
theorem eq_ofOctets_iff {header : Header} {octets : Octets} (length : octets.length = size) :
    header = ofOctets octets ↔ Written header octets := by
  constructor
  · intro found
    rw [found]
    exact written_ofOctets length
  · intro written
    exact eq_of_written written (written_ofOctets length)

end Header

namespace Block

/-- A header and the transactions behind their count. -/
def Written : Format Block := fun block octets =>
  ∃ header body, header.length = Header.size ∧ Listed Transaction.Recorded block.transactions body ∧
    block.hash = Sha256.double header ∧ Header.Written block.header header ∧ octets = header ++ body

/-- The decoder reads a block where its octets stand. -/
theorem reads_decoder : decoder.Reads Written := by
  have transactions := CompactSize.reads_list Transaction.reads_decoder
    (show 0 < Transaction.smallest by decide) fun _ _ => Transaction.smallest_le_length
  apply ((Decoder.reads_take Header.size).bind fun header => transactions.map
    (Block.mk (Sha256.double header) (Header.ofOctets header))).congr
  intro block octets
  constructor
  · intro read
    obtain ⟨header, _, body, rfl, ⟨rfl, length⟩, transactions, listed, rfl⟩ := read
    exact ⟨header, body, length, listed, rfl, (Header.eq_ofOctets_iff length).mp rfl, rfl⟩
  · intro written
    obtain ⟨header, body, length, listed, hash, fields, rfl⟩ := written
    refine ⟨header, header, body, rfl, ⟨rfl, length⟩, block.transactions, listed, ?_⟩
    rw [← (Header.eq_ofOctets_iff length).mpr fields, ← hash]

/-- A block is decoded where the octets start with it, whatever stands behind. -/
theorem decode_eq_ok_iff {raw : Octets} {block : Block} :
    decode raw = .ok block ↔ ∃ octets rest, Written block octets ∧ octets ++ rest = raw := by
  have read := reads_decoder (.start raw) block
  unfold decode
  constructor
  · intro decoded
    cases outcome : decoder (.start raw) with
    | error reason =>
      rw [outcome] at decoded
      cases decoded
    | ok result =>
      obtain ⟨found, last⟩ := result
      rw [outcome] at decoded
      cases decoded
      obtain ⟨octets, ⟨rest, whole⟩, written, -⟩ := (read last).mp outcome
      exact ⟨octets, rest, written, whole⟩
  · intro parts
    obtain ⟨octets, rest, written, whole⟩ := parts
    rw [(read _).mpr ⟨octets, ⟨rest, whole⟩, written, rfl⟩]
    rfl

/-- A way to cut octets into a header, a count, segments and a rest. -/
structure Cut where
  header : Octets
  size : Octets
  segments : List Octets
  rest : Octets

namespace Cut

/-- The octets that are cut. -/
def octets (cut : Cut) : Octets :=
  cut.header ++ cut.size ++ cut.segments.flatten ++ cut.rest

/-- The parts of a cut hold a block: the count is the number of segments, in any of its forms, each
segment decodes as the block's transaction at its place, and the header names the block and holds
its fields. -/
structure Holds (cut : Cut) (block : Block) : Prop where
  length_header : cut.header.length = 80
  counted : CompactSize.Written cut.segments.length cut.size
  decoded : List.Forall₂ (fun transaction segment => Transaction.decode segment = .ok transaction)
    block.transactions cut.segments
  hash_eq : block.hash = Sha256.double cut.header
  fields : Header.Written block.header cut.header

/-- The octets in front of the rest. -/
def written (cut : Cut) : Octets :=
  cut.header ++ (cut.size ++ cut.segments.flatten)

theorem octets_eq (cut : Cut) : cut.octets = cut.written ++ cut.rest := by
  simp only [octets, written, List.append_assoc]

theorem decoded_iff {transactions : List Transaction} {segments : List Octets} :
    List.Forall₂ (fun transaction segment => Transaction.decode segment = .ok transaction)
      transactions segments ↔ List.Forall₂ Transaction.Recorded transactions segments := by
  simp only [Transaction.decode_eq_ok_iff_recorded]

theorem written_of_holds {cut : Cut} {block : Block} (holds : cut.Holds block) :
    Written block cut.written := by
  have recorded := decoded_iff.mp holds.decoded
  have counted := holds.counted
  rw [← recorded.length_eq] at counted
  exact ⟨cut.header, _, holds.length_header, ⟨cut.size, cut.segments, counted, recorded, rfl⟩,
    holds.hash_eq, holds.fields, rfl⟩

/-- Octets that a block is written in can be cut. -/
theorem exists_cut {block : Block} {octets : Octets} (written : Written block octets)
    (rest : Octets) : ∃ cut : Cut, cut.octets = octets ++ rest ∧ cut.Holds block := by
  obtain ⟨header, _, length, ⟨size, segments, counted, recorded, rfl⟩, hash, fields, rfl⟩ := written
  rw [recorded.length_eq] at counted
  refine ⟨⟨header, size, segments, rest⟩, ?_, length, counted, decoded_iff.mpr recorded, hash, fields⟩
  exact octets_eq _

/-- Two cuts of the same octets that hold blocks are the same. -/
theorem eq_of_holds {cut other : Cut} {block otherBlock : Block} (holds : cut.Holds block)
    (otherHolds : other.Holds otherBlock) (same : cut.octets = other.octets) : cut = other := by
  rw [octets_eq, octets_eq] at same
  obtain ⟨rfl, sameWritten, sameRest⟩ :=
    reads_decoder.unique (written_of_holds holds) (written_of_holds otherHolds) same
  have lengths : cut.header.length = other.header.length :=
    holds.length_header.trans otherHolds.length_header.symm
  obtain ⟨sameHeader, sameBody⟩ := List.append_inj sameWritten lengths
  obtain ⟨-, sameSize, sameSegments⟩ :=
    CompactSize.reads_number.unique holds.counted otherHolds.counted sameBody
  have parts := Transaction.reads_decoder.parts_unique (decoded_iff.mp holds.decoded)
    (decoded_iff.mp otherHolds.decoded) sameSegments
  cases cut
  cases other
  congr

end Cut

/-- A block is decoded exactly if its octets can be cut into a header of 80 octets, a count, as many
segments that decode by themselves as the block's transactions, and a rest. The octets can be cut in
one way only. -/
theorem decode_eq_ok_iff_exists_cut (raw : Octets) :
    (∀ block, decode raw = .ok block ↔ ∃ cut : Cut, cut.octets = raw ∧ cut.Holds block) ∧
      {cut : Cut | cut.octets = raw ∧ ∃ block, cut.Holds block}.Subsingleton := by
  constructor
  · intro block
    rw [decode_eq_ok_iff]
    constructor
    · intro parts
      obtain ⟨octets, rest, written, rfl⟩ := parts
      exact Cut.exists_cut written rest
    · intro held
      obtain ⟨cut, rfl, holds⟩ := held
      exact ⟨cut.written, cut.rest, Cut.written_of_holds holds, cut.octets_eq.symm⟩
  · intro cut held other otherHeld
    obtain ⟨whole, block, holds⟩ := held
    obtain ⟨otherWhole, otherBlock, otherHolds⟩ := otherHeld
    exact Cut.eq_of_holds holds otherHolds (whole.trans otherWhole.symm)

end Block

end CashHerald.Ledger
