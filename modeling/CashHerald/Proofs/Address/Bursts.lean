import CashHerald.Proofs.Address.Canonical
import Mathlib

/-!
Bursts of wrong characters in the text of an address. The five bits that leave the register come
back in the low bits of its generators, so that no step forgets anything of the register. Main
statement: the checksum finds every change of an address that a window of eight characters covers.
-/

namespace CashHerald.Checksum

open Regroup

/-- The bits that leave the register come back as the low bits of what is fed back. -/
theorem feedback_mod {leaving : UInt64} (small : leaving.toNat < 2 ^ 5) :
    (feedback leaving).toNat % 2 ^ 5 = leaving.toNat := by
  have every : ∀ number : Fin 32,
      (feedback (UInt64.ofNat number)).toNat % 2 ^ 5 = (UInt64.ofNat number).toNat := by decide
  have known := every ⟨leaving.toNat, small⟩
  rwa [UInt64.ofNat_toNat] at known

/-- The low bits of a register after a step are its highest bits before, if it takes a zero. -/
theorem step_zero_mod {register : UInt64} (fits : Fits register) :
    (step register 0).toNat % 2 ^ 5 = register.toNat / 2 ^ 35 := by
  have leaving : (register >>> 35).toNat = register.toNat / 2 ^ 35 := by
    rw [UInt64.toNat_shiftRight, Nat.shiftRight_eq_div_pow]
    rfl
  have small : (register >>> 35).toNat < 2 ^ 5 := by
    rw [Fits] at fits
    omega
  have shifted : ((register &&& 0x7ffffffff) <<< 5).toNat % 2 ^ 5 = 0 := by
    rw [UInt64.toNat_shiftLeft]
    change (register &&& 0x7ffffffff).toNat <<< 5 % 2 ^ 64 % 2 ^ 5 = 0
    rw [Nat.shiftLeft_eq]
    omega
  have nothing : (0 : UInt8).toUInt64.toNat % 2 ^ 5 = 0 := rfl
  rw [step, UInt64.toNat_xor, UInt64.toNat_xor, Nat.xor_mod_two_pow, Nat.xor_mod_two_pow, shifted,
    nothing, feedback_mod small, leaving, Nat.xor_zero, Nat.zero_xor]

/-- A register that a zero clears was clear. -/
theorem eq_zero_of_step {register : UInt64} (fits : Fits register) (clear : step register 0 = 0) :
    register = 0 := by
  have high := step_zero_mod fits
  rw [clear] at high
  have room : register.toNat < 2 ^ 35 :=
    (Nat.div_eq_zero_iff_lt (Nat.two_pow_pos 35)).mp high.symm
  have shifted : (step register 0).toNat = 0 + 2 ^ 5 * register.toNat :=
    toNat_step room (by decide)
  rw [clear] at shifted
  change 0 = 0 + 2 ^ 5 * register.toNat at shifted
  apply UInt64.toNat_inj.mp
  change register.toNat = 0
  omega

/-- A step forgets nothing of the register. -/
theorem step_inj {register other : UInt64} (fits : Fits register) (otherFits : Fits other)
    {group : UInt8} (same : step register group = step other group) : register = other := by
  have clear : step (register ^^^ other) 0 = 0 := by
    rw [← UInt8.xor_self (a := group), step_xor, same, UInt64.xor_self]
  exact UInt64.xor_eq_zero_iff.mp (eq_zero_of_step (fits_xor fits otherFits) clear)

theorem run_inj {register other : UInt64} (fits : Fits register) (otherFits : Fits other)
    {groups : List UInt8} (same : run register groups = run other groups) : register = other := by
  induction groups generalizing register other with
  | nil => exact same
  | cons group rest inductionHypothesis =>
    exact step_inj fits otherFits
      (inductionHypothesis (fits_step register group) (fits_step other group) same)

/-- Up to eight groups are told apart by the register behind them. -/
theorem groups_inj {register : UInt64} {first second : List UInt8}
    (length : first.length = second.length) (few : first.length ≤ size) (narrow : Narrow 5 first)
    (secondNarrow : Narrow 5 second) (same : run register first = run register second) :
    first = second := by
  rw [run_eq_zeros_xor register first, run_eq_zeros_xor register second, length] at same
  have added : run 0 first = run 0 second := UInt64.xor_right_inj _ |>.mp same
  apply value_inj (by decide) length narrow secondNarrow
  rw [← toNat_run_zero narrow few, ← toNat_run_zero secondNarrow (length ▸ few), added]

/-- Of the lists that differ in up to eight groups only, one at most has a right checksum. -/
theorem verify_inj {network : String} {front first second back : List UInt8}
    (length : first.length = second.length) (few : first.length ≤ size) (narrow : Narrow 5 first)
    (secondNarrow : Narrow 5 second) (right : verify network (front ++ (first ++ back)) = true)
    (secondRight : verify network (front ++ (second ++ back)) = true) : first = second := by
  have start : Fits (run 1 (networkGroups network ++ front)) := fits_run fits_one _
  rw [verify, beq_iff_eq, polymod, ← List.append_assoc, run_append, run_append,
    UInt64.xor_eq_zero_iff] at right secondRight
  exact groups_inj length few narrow secondNarrow
    (run_inj (fits_run start first) (fits_run start second) (right.trans secondRight.symm))

end CashHerald.Checksum

namespace CashHerald.Address

open Regroup

/-- Some characters of an address are replaced by other ones of its alphabet, all of them within
eight characters in a row. -/
structure Burst (original changed : List Char) : Prop where
  length : changed.length = original.length
  inAlphabet : ∀ character ∈ changed, character ∈ alphabet
  differs : changed ≠ original
  window : ∃ start, ∀ index,
    changed[index]? ≠ original[index]? → start ≤ index ∧ index < start + 8

/-- Lists that differ within eight places in a row only have the same front and the same back. -/
theorem exists_parts {Element : Type} {original changed : List Element}
    (length : changed.length = original.length) {start : Nat} (window : ∀ index,
      changed[index]? ≠ original[index]? → start ≤ index ∧ index < start + 8) :
    ∃ front first second back, original = front ++ (first ++ back) ∧
      changed = front ++ (second ++ back) ∧ first.length = second.length ∧ first.length ≤ 8 := by
  have same {index : Nat} (outside : index < start ∨ start + 8 ≤ index) :
      changed[index]? = original[index]? := by
    by_contra different
    obtain ⟨lower, upper⟩ := window index different
    omega
  have front : changed.take start = original.take start := by
    apply List.ext_getElem?
    intro index
    rw [List.getElem?_take, List.getElem?_take]
    split
    · exact same (.inl ‹_›)
    · rfl
  have back : (changed.drop start).drop 8 = (original.drop start).drop 8 := by
    apply List.ext_getElem?
    intro index
    simp only [List.getElem?_drop]
    exact same (.inr (by omega))
  refine ⟨original.take start, (original.drop start).take 8, (changed.drop start).take 8,
    (original.drop start).drop 8, ?_, ?_, ?_, List.length_take_le ..⟩
  · rw [List.take_append_drop, List.take_append_drop]
  · rw [← front, ← back, List.take_append_drop, List.take_append_drop]
  · simp only [List.length_take, List.length_drop, length]

/-- Characters of the alphabet are the symbols of some groups. -/
theorem exists_map_symbol {text : List Char} (known : ∀ character ∈ text, character ∈ alphabet) :
    ∃ symbols, Narrow 5 symbols ∧ text = symbols.map symbol := by
  induction text with
  | nil => exact ⟨[], List.forall_mem_nil _, rfl⟩
  | cons character rest inductionHypothesis =>
    obtain ⟨first, others⟩ := List.forall_mem_cons.mp known
    obtain ⟨symbols, narrow, rfl⟩ := inductionHypothesis others
    have found : (alphabet.idxOf? character).isSome = true := by
      rwa [Option.isSome_iff_ne_none, ne_eq, List.idxOf?_eq_none_iff, not_not]
    obtain ⟨index, place⟩ := Option.isSome_iff_exists.mp found
    have value : symbolValue? character = some (UInt8.ofNat index) := by
      rw [symbolValue?, place, Option.map_some]
    obtain ⟨small, rfl⟩ := symbol_of_symbolValue? value
    exact ⟨UInt8.ofNat index :: symbols, List.forall_mem_cons.mpr ⟨small, narrow⟩, rfl⟩

theorem getElem?_eq_of_map_symbol {first second : List UInt8} (narrow : Narrow 5 first)
    (secondNarrow : Narrow 5 second) {index : Nat}
    (same : (first.map symbol)[index]? = (second.map symbol)[index]?) :
    first[index]? = second[index]? := by
  have read {groups : List UInt8} (small : Narrow 5 groups) :
      (groups.map symbol)[index]?.bind symbolValue? = groups[index]? := by
    cases found : groups[index]? with
    | none => simp [found]
    | some group => simp [found, symbolValue?_symbol (small group (List.mem_of_getElem? found))]
  rw [← read narrow, same, read secondNarrow]

/-- Groups that differ from those of an address within eight places in a row have a wrong
checksum. -/
theorem verify_of_window {address : Address} {symbols : List UInt8} (narrow : Narrow 5 symbols)
    (length : symbols.length = address.groups.length) (differs : symbols ≠ address.groups)
    {start : Nat} (window : ∀ index,
      symbols[index]? ≠ address.groups[index]? → start ≤ index ∧ index < start + 8) :
    Checksum.verify address.network symbols = false := by
  by_contra verified
  rw [Bool.not_eq_false] at verified
  have own := verify_groups address
  have ownNarrow := narrow_addressGroups address
  obtain ⟨front, first, second, back, ownCut, cut, same, few⟩ := exists_parts length window
  rw [ownCut] at own ownNarrow differs
  rw [cut] at verified narrow differs
  have inside := (narrow_append.mp (narrow_append.mp ownNarrow).2).1
  have changedInside := (narrow_append.mp (narrow_append.mp narrow).2).1
  have equal := Checksum.verify_inj same few inside changedInside own verified
  exact differs (by rw [equal])

/-- Every burst in the text of an address leaves a text with a wrong checksum. -/
theorem decode_of_burst (address : Address) (showable : Showable address.network)
    {shown changed : List Char}
    (written : encode address = String.ofList (address.network.toList ++ ':' :: shown))
    (burst : Burst shown changed) (defaultNetwork : String) :
    decode defaultNetwork (String.ofList (address.network.toList ++ ':' :: changed)) =
      .error .checksumMismatch := by
  have original : address.groups.map symbol = shown := by
    have whole := toList_encode address
    rw [written, String.toList_ofList] at whole
    exact (List.cons.inj (List.append_cancel_left whole)).2.symm
  obtain ⟨symbols, narrow, rfl⟩ := exists_map_symbol burst.inAlphabet
  have length : symbols.length = address.groups.length := by
    have same := burst.length
    rwa [← original, List.length_map, List.length_map] at same
  have present : symbols ≠ [] := by
    rw [← List.length_pos_iff, length]
    exact List.length_pos_iff.mpr (groups_ne_nil address)
  have read := decode_eq_ofGroups showable narrow present
    (lower_eq_self (hasUpper_shown showable symbols)) (.inr (hasUpper_shown showable symbols))
    (by simpa using trim_map_shown showable present id fun _ => rfl) defaultNetwork
  have long : ¬symbols.length ≤ Checksum.size :=
    Nat.not_le.mpr (length ▸ size_lt_length_groups address)
  have wrong : Checksum.verify address.network symbols = false := by
    obtain ⟨start, window⟩ := burst.window
    rw [← original] at window
    refine verify_of_window narrow length (fun same => burst.differs ?_) fun index different =>
      window index ?_
    · rw [← original, same]
    · exact mt (getElem?_eq_of_map_symbol narrow (narrow_addressGroups address)) different
  rw [read, ofGroups, if_neg long, if_pos wrong]

/-- Two neighbours in the text of an address change places. -/
theorem decode_swapped_sample :
    Burst "qpm2qsznhks23z7629mms6s4cwef74vcwvy22gdx6a".toList
        "qpm2qsznhks23z7629mms6s4cwef74vcwvy22gdxa6".toList ∧
      decode "bchtest" "bitcoincash:qpm2qsznhks23z7629mms6s4cwef74vcwvy22gdxa6" =
        .error .checksumMismatch := by
  have within : ∀ index < 42, "qpm2qsznhks23z7629mms6s4cwef74vcwvy22gdxa6".toList[index]? ≠
      "qpm2qsznhks23z7629mms6s4cwef74vcwvy22gdx6a".toList[index]? → 40 ≤ index ∧ index < 48 := by
    decide
  have known :
      "qpm2qsznhks23z7629mms6s4cwef74vcwvy22gdxa6".toList.all alphabet.contains = true := by decide
  have burst : Burst "qpm2qsznhks23z7629mms6s4cwef74vcwvy22gdx6a".toList
      "qpm2qsznhks23z7629mms6s4cwef74vcwvy22gdxa6".toList := by
    refine ⟨by decide, by simpa only [List.contains_iff_mem] using List.all_eq_true.mp known,
      by decide, 40, fun index different => within index ?_ different⟩
    by_contra outside
    rw [List.getElem?_eq_none (Nat.le_of_not_lt outside),
      List.getElem?_eq_none (Nat.le_of_not_lt outside)] at different
    exact different rfl
  have showable : Showable sample.network := ⟨by decide, by decide, by decide, by decide⟩
  exact ⟨burst, decode_of_burst sample showable (by cbv) burst "bchtest"⟩

end CashHerald.Address
