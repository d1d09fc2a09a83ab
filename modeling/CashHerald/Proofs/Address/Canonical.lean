import CashHerald.Address.Text
import CashHerald.Proofs.Address.Remainder
import Mathlib

/-!
Addresses and their texts. A text in lower case names an address exactly if it is the text of this
address, so that an address has one text. Main statements: reading undoes writing in either letter
case, and a text that is read is the text of its address up to letter case, blanks around it and a
default network.
-/

namespace CashHerald.Address

open Regroup

/-- A network name that a text can show: it has a character, no colon and no capital letter, and no
blank at its start. -/
structure Showable (network : String) : Prop where
  nonempty : network ≠ ""
  noColon : ':' ∉ network.toList
  noCapital : Letters.hasUpper network.toList = false
  start : network.toList.head?.all (!Blank.isBlank ·)

/-- All groups of an address, its checksum too. -/
def groups (address : Address) : List UInt8 :=
  address.payload ++ Checksum.make address.network address.payload

/-- The text to which case, blanks and a default network do not matter. -/
def normalForm (defaultNetwork text : String) : String :=
  let folded := Letters.lower (Blank.trim text.toList)
  if ':' ∈ folded then String.ofList folded
  else String.ofList (Letters.lower defaultNetwork.toList ++ ':' :: folded)

theorem toList_encode (address : Address) :
    (encode address).toList = address.network.toList ++ ':' :: address.groups.map symbol := by
  simp [encode, groups]

theorem toGroups?_payload (address : Address) :
    toGroups? (address.kind.version :: address.hash.octets) = some address.payload := by
  obtain ⟨payload, written⟩ := exists_toGroups? (address.kind.version :: address.hash.octets)
  rw [Address.payload, written, Option.getD_some]

theorem narrow_make (network : String) (payload : List UInt8) :
    Narrow 5 (Checksum.make network payload) :=
  Checksum.narrow_groups _

theorem narrow_addressGroups (address : Address) : Narrow 5 address.groups :=
  narrow_append.mpr
    ⟨narrow_of_toGroups? (toGroups?_payload address), narrow_make address.network address.payload⟩

/-- The payload of an address has a group at least, since it has a version. -/
theorem payload_ne_nil (address : Address) : address.payload ≠ [] := by
  intro empty
  have written := toGroups?_payload address
  rw [empty, toGroups?, regroup?_filled_iff (by decide) (by decide)] at written
  obtain ⟨-, -, fill, -, fills⟩ := written
  have length := fills.length
  rw [List.length_nil, List.length_cons] at length
  omega

theorem length_groups (address : Address) :
    address.groups.length = address.payload.length + Checksum.size := by
  rw [groups, List.length_append, Checksum.length_make, Checksum.size]

theorem groups_ne_nil (address : Address) : address.groups ≠ [] :=
  List.append_ne_nil_of_left_ne_nil (payload_ne_nil address) _

/-- An address has more groups than its checksum. -/
theorem size_lt_length_groups (address : Address) : Checksum.size < address.groups.length := by
  have present := List.length_pos_iff.mpr (payload_ne_nil address)
  rw [length_groups]
  omega

theorem verify_groups (address : Address) :
    Checksum.verify address.network address.groups = true :=
  (Checksum.verify_append_iff _ _ (Checksum.length_make _ _)
    (narrow_make address.network address.payload)).mpr rfl

theorem kindOfVersion?_eq_some_iff {version : UInt8} {kind : AddressKind} :
    kindOfVersion? version = some kind ↔ version = kind.version := by
  unfold kindOfVersion?
  constructor
  · intro known
    split at known
    · cases known
      assumption
    · split at known
      · cases known
        assumption
      · cases known
  · rintro rfl
    cases kind <;> rfl

/-- A version and a hash name an address exactly if they are its own. -/
theorem ofVersioned_eq_ok_iff {network : String} {octets : Octets} {address : Address} :
    ofVersioned network octets = .ok address ↔
      address.network = network ∧ octets = address.kind.version :: address.hash.octets := by
  constructor
  · intro read
    unfold ofVersioned at read
    split at read
    · cases read
    · split at read
      · cases read
      · rename_i kind known
        split at read
        · cases read
          exact ⟨rfl, by rw [kindOfVersion?_eq_some_iff.mp known]⟩
        · cases read
  · rintro ⟨rfl, rfl⟩
    have known : kindOfVersion? address.kind.version = some address.kind :=
      kindOfVersion?_eq_some_iff.mpr rfl
    simp only [ofVersioned, known, address.hash.length_octets, dite_true]

/-- Groups name an address exactly if they are the groups of this address. -/
theorem ofGroups_eq_ok_iff {network : String} {symbols : List UInt8} {address : Address}
    (narrow : Narrow 5 symbols) :
    ofGroups network symbols = .ok address ↔
      address.network = network ∧ symbols = address.groups := by
  constructor
  · intro read
    unfold ofGroups at read
    split at read
    · cases read
    · rename_i long
      split at read
      · cases read
      · rename_i verified
        split at read
        · cases read
        · rename_i octets regrouped
          obtain ⟨rfl, rfl⟩ := ofVersioned_eq_ok_iff.mp read
          have payload : symbols.take (symbols.length - Checksum.size) = address.payload :=
            Option.some.inj
              ((ofGroups?_eq_some_iff.mp regrouped).symm.trans (toGroups?_payload address))
          have cut := List.take_append_drop (symbols.length - Checksum.size) symbols
          rw [payload] at cut
          have length : (symbols.drop (symbols.length - Checksum.size)).length = Checksum.size := by
            rw [List.length_drop]
            omega
          have narrowLast := (narrow_append.mp (cut ▸ narrow)).2
          rw [Bool.not_eq_false, ← cut, Checksum.verify_append_iff _ _ length narrowLast] at verified
          exact ⟨rfl, by rw [← cut, verified, groups]⟩
  · rintro ⟨rfl, rfl⟩
    have long : ¬address.groups.length ≤ Checksum.size :=
      Nat.not_le.mpr (size_lt_length_groups address)
    have verified := verify_groups address
    have payload : address.groups.take (address.groups.length - Checksum.size) =
        address.payload := by
      rw [length_groups, Nat.add_sub_cancel, groups, List.take_left]
    have regrouped : ofGroups? address.payload =
        some (address.kind.version :: address.hash.octets) :=
      ofGroups?_eq_some_iff.mpr (toGroups?_payload address)
    simp only [ofGroups, if_neg long, verified, Bool.true_eq_false, if_false, payload, regrouped]
    exact ofVersioned_eq_ok_iff.mpr ⟨rfl, rfl⟩

theorem symbolValue?_symbol {group : UInt8} (narrow : group.toNat < 2 ^ 5) :
    symbolValue? (symbol group) = some group := by
  have every : ∀ number : Fin 32,
      symbolValue? (symbol (UInt8.ofNat number)) = some (UInt8.ofNat number) := by decide
  have known := every ⟨group.toNat, narrow⟩
  rwa [UInt8.ofNat_toNat] at known

theorem symbol_of_symbolValue? {character : Char} {group : UInt8}
    (known : symbolValue? character = some group) :
    group.toNat < 2 ^ 5 ∧ symbol group = character := by
  obtain ⟨index, found, rfl⟩ := Option.map_eq_some_iff.mp known
  obtain ⟨inside, same, -⟩ := List.idxOf?_eq_some_iff.mp found
  have small : index < 2 ^ 5 := inside
  have number : (UInt8.ofNat index).toNat = index := by
    rw [UInt8.toNat_ofNat']
    omega
  refine ⟨number.symm ▸ small, ?_⟩
  rw [symbol, number, List.getD_eq_getElem _ _ inside, same]

theorem symbol_mem_alphabet (group : UInt8) : symbol group ∈ alphabet := by
  rw [symbol, List.getD_eq_getElem?_getD]
  cases found : alphabet[group.toNat]? with
  | none => exact (by decide : 'q' ∈ alphabet)
  | some character => exact List.mem_of_getElem? found

/-- A symbol is no capital letter. -/
theorem isUpper_symbol (group : UInt8) : (symbol group).isUpper = false := by
  have none : alphabet.any Char.isUpper = false := by decide
  simpa using List.any_eq_false.mp none _ (symbol_mem_alphabet group)

theorem isBlank_symbol (group : UInt8) : Blank.isBlank (symbol group) = false := by
  have none : alphabet.any Blank.isBlank = false := by decide
  simpa using List.any_eq_false.mp none _ (symbol_mem_alphabet group)

/-- Characters have values exactly if they are the symbols of these values. -/
theorem groupsBehind_eq_ok_iff {earlier symbols : List UInt8} {text : List Char} :
    groupsBehind earlier text = .ok symbols ↔
      ∃ later, symbols = earlier.reverse ++ later ∧ Narrow 5 later ∧ text = later.map symbol := by
  induction text generalizing earlier with
  | nil =>
    constructor
    · intro read
      cases read
      exact ⟨[], by simp, List.forall_mem_nil _, rfl⟩
    · rintro ⟨later, rfl, -, empty⟩
      obtain rfl : later = [] := List.map_eq_nil_iff.mp empty.symm
      simp [groupsBehind]
  | cons character rest inductionHypothesis =>
    cases known : symbolValue? character with
    | none =>
      simp only [groupsBehind, known, reduceCtorEq, false_iff, not_exists, not_and]
      intro later _ narrow same
      cases later with
      | nil => cases same
      | cons group others =>
        have value := symbolValue?_symbol (narrow group List.mem_cons_self)
        rw [List.map_cons, List.cons.injEq] at same
        rw [← same.1, known] at value
        cases value
    | some group =>
      obtain ⟨small, rfl⟩ := symbol_of_symbolValue? known
      simp only [groupsBehind, known, inductionHypothesis]
      constructor
      · rintro ⟨later, rfl, narrow, rfl⟩
        exact ⟨group :: later, by simp, List.forall_mem_cons.mpr ⟨small, narrow⟩, rfl⟩
      · rintro ⟨later, rfl, narrow, same⟩
        cases later with
        | nil => cases same
        | cons other others =>
          obtain ⟨otherSmall, othersNarrow⟩ := List.forall_mem_cons.mp narrow
          rw [List.map_cons, List.cons.injEq] at same
          have value := symbolValue?_symbol otherSmall
          rw [← same.1, known, Option.some.injEq] at value
          subst value
          exact ⟨others, by simp, othersNarrow, same.2⟩

/-- A text in lower case names an address exactly if its symbols are those of the address and its
network is the network of the address. -/
theorem decodeFolded_eq_ok_iff {defaultNetwork : String} {text : List Char} {address : Address} :
    decodeFolded defaultNetwork text = .ok address ↔
      separate defaultNetwork text = (address.network.toList, address.groups.map symbol) ∧
        address.network ≠ "" := by
  have symbols : address.groups.map symbol ≠ [] := mt List.map_eq_nil_iff.mp (groups_ne_nil address)
  rcases parts : separate defaultNetwork text with ⟨network, shown⟩
  simp only [decodeFolded, parts]
  constructor
  · intro read
    split at read
    · cases read
    · rename_i present
      split at read
      · cases read
      · rename_i values found
        obtain ⟨later, rfl, narrow, rfl⟩ := groupsBehind_eq_ok_iff.mp found
        obtain ⟨name, same⟩ := (ofGroups_eq_ok_iff narrow).mp read
        rw [name, same, String.toList_ofList]
        refine ⟨rfl, fun empty => present (.inl ?_)⟩
        exact String.toList_ofList.symm.trans (congrArg String.toList empty)
  · rintro ⟨same, present⟩
    obtain ⟨rfl, rfl⟩ := Prod.mk.injEq .. ▸ same
    have name : address.network.toList ≠ [] := by
      intro empty
      exact present (String.toList_inj.mp empty)
    have found : groupsBehind [] (address.groups.map symbol) = .ok address.groups :=
      groupsBehind_eq_ok_iff.mpr ⟨_, rfl, narrow_addressGroups address, rfl⟩
    rw [if_neg (not_or.mpr ⟨name, symbols⟩), found, String.ofList_toList]
    exact (ofGroups_eq_ok_iff (narrow_addressGroups address)).mpr ⟨rfl, rfl⟩

/-- A text with a showable network is read from its symbols, in any one letter case. -/
theorem decode_eq_ofGroups {network : String} (showable : Showable network) {symbols : List UInt8}
    (narrow : Narrow 5 symbols) (present : symbols ≠ []) {text : List Char}
    (folded : Letters.lower text = network.toList ++ ':' :: symbols.map symbol)
    (oneCase : Letters.hasLower text = false ∨ Letters.hasUpper text = false)
    (trimmed : Blank.trim text = text) (defaultNetwork : String) :
    decode defaultNetwork (String.ofList text) = ofGroups network symbols := by
  have written : text ≠ [] := by
    rintro rfl
    cases (List.append_eq_nil_iff.mp folded.symm).2
  have unmixed : ¬(Letters.hasLower text ∧ Letters.hasUpper text) := by
    rcases oneCase with none | none <;> simp [none]
  have cut : Pieces.splitFirst? ':' (network.toList ++ ':' :: symbols.map symbol) =
      some (network.toList, symbols.map symbol) :=
    Pieces.splitFirst?_eq_some_iff.mpr ⟨rfl, showable.noColon⟩
  have name : network.toList ≠ [] := fun empty => showable.nonempty (String.toList_inj.mp empty)
  have shown : ¬(network.toList = [] ∨ symbols.map symbol = []) :=
    not_or.mpr ⟨name, mt List.map_eq_nil_iff.mp present⟩
  have found : groupsBehind [] (symbols.map symbol) = .ok symbols :=
    groupsBehind_eq_ok_iff.mpr ⟨_, rfl, narrow, rfl⟩
  simp only [decode, String.toList_ofList, trimmed, if_neg written, if_neg unmixed, folded,
    decodeFolded, separate, cut, if_neg shown, found, String.ofList_toList]

/-- The text of an address with a showable network is read in any one letter case. -/
theorem decode_of_lower_eq {address : Address} (showable : Showable address.network)
    {text : List Char} (folded : Letters.lower text = (encode address).toList)
    (oneCase : Letters.hasLower text = false ∨ Letters.hasUpper text = false)
    (trimmed : Blank.trim text = text) (defaultNetwork : String) :
    decode defaultNetwork (String.ofList text) = .ok address := by
  rw [decode_eq_ofGroups showable (narrow_addressGroups address) (groups_ne_nil address)
    (folded.trans (toList_encode address)) oneCase trimmed]
  exact (ofGroups_eq_ok_iff (narrow_addressGroups address)).mpr ⟨rfl, rfl⟩

/-- A text has no capital letter, if its network has none. -/
theorem hasUpper_shown {network : String} (showable : Showable network) (symbols : List UInt8) :
    Letters.hasUpper (network.toList ++ ':' :: symbols.map symbol) = false := by
  have name := List.any_eq_false.mp showable.noCapital
  rw [Letters.hasUpper, List.any_eq_false]
  intro character member
  rw [List.mem_append, List.mem_cons, List.mem_map] at member
  rcases member with named | rfl | ⟨group, -, rfl⟩
  · exact name character named
  · decide
  · simp [isUpper_symbol]

theorem hasUpper_encode {address : Address} (showable : Showable address.network) :
    Letters.hasUpper (encode address).toList = false :=
  toList_encode address ▸ hasUpper_shown showable address.groups

/-- Blanks are no letters, so that they stay what they are in capital letters. -/
theorem isBlank_toUpper (character : Char) :
    Blank.isBlank character.toUpper = Blank.isBlank character := by
  have noLetter : Blank.characters.any Char.isAlpha = false := by decide
  by_cases small : character.isLower
  · have letter : character.isAlpha = true := by simp [Char.isAlpha, small]
    have capital : character.toUpper.isAlpha = true := by rwa [Char.isAlpha_toUpper_eq_isAlpha]
    have plain {other : Char} (alphabetic : other.isAlpha = true) : Blank.isBlank other = false := by
      rw [← Bool.not_eq_true, Blank.isBlank, List.contains_iff_mem]
      exact fun member => List.any_eq_false.mp noLetter other member alphabetic
    rw [plain letter, plain capital]
  · rw [Char.toUpper_eq_of_not_isLower small]

/-- A text with a showable network has no blank at its ends, in small or in capital letters. -/
theorem trim_map_shown {network : String} (showable : Showable network) {symbols : List UInt8}
    (present : symbols ≠ []) (change : Char → Char)
    (keeps : ∀ character, Blank.isBlank (change character) = Blank.isBlank character) :
    Blank.trim ((network.toList ++ ':' :: symbols.map symbol).map change) =
      (network.toList ++ ':' :: symbols.map symbol).map change := by
  have start := showable.start
  have name : network.toList ≠ [] := fun empty => showable.nonempty (String.toList_inj.mp empty)
  apply Blank.trim_eq_self
  · cases named : network.toList with
    | nil => exact absurd named name
    | cons first rest =>
      rw [named] at start
      simpa [keeps] using start
  · obtain ⟨front, last, rfl⟩ := List.eq_nil_or_concat symbols |>.resolve_left present
    simp [keeps, isBlank_symbol, List.getLast?_append, List.getLast?_cons]

theorem trim_map_encode {address : Address} (showable : Showable address.network)
    (change : Char → Char)
    (keeps : ∀ character, Blank.isBlank (change character) = Blank.isBlank character) :
    Blank.trim ((encode address).toList.map change) = (encode address).toList.map change :=
  toList_encode address ▸ trim_map_shown showable (groups_ne_nil address) change keeps

theorem lower_eq_self {text : List Char} (small : Letters.hasUpper text = false) :
    Letters.lower text = text := by
  have each := List.any_eq_false.mp small
  exact (List.map_congr_left fun character member =>
    Char.toLower_eq_of_not_isUpper (each character member)).trans (List.map_id text)

theorem decode_written {address : Address} (showable : Showable address.network)
    (defaultNetwork : String) : decode defaultNetwork (encode address) = .ok address := by
  have small := hasUpper_encode showable
  have trimmed := trim_map_encode showable id fun _ => rfl
  rw [List.map_id] at trimmed
  have read := decode_of_lower_eq showable (lower_eq_self small) (.inr small) trimmed defaultNetwork
  rwa [String.ofList_toList] at read

/-- Reading undoes writing, also in capital letters and whatever the default network is. -/
theorem decode_encode (address : Address) (showable : Showable address.network)
    (defaultNetwork : String) :
    decode defaultNetwork (encode address) = .ok address ∧
      decode defaultNetwork (encode address).toUpper = .ok address := by
  have kept : Letters.lower (encode address).toList = (encode address).toList :=
    lower_eq_self (hasUpper_encode showable)
  constructor
  · exact decode_written showable defaultNetwork
  · have capital : (encode address).toUpper =
        String.ofList ((encode address).toList.map Char.toUpper) := by
      rw [← String.toList_map, String.ofList_toList, String.toUpper]
    have folded : Letters.lower ((encode address).toList.map Char.toUpper) =
        (encode address).toList := by
      rw [Letters.lower, List.map_map]
      exact (List.map_congr_left fun character _ => Char.toLower_toUpper_eq_toLower character).trans kept
    have noSmall : Letters.hasLower ((encode address).toList.map Char.toUpper) = false := by
      simp [Letters.hasLower]
    rw [capital]
    exact decode_of_lower_eq showable folded (.inl noSmall)
      (trim_map_encode showable Char.toUpper isBlank_toUpper) defaultNetwork

/-- An address of the main network. -/
def sample : Address :=
  ⟨"bitcoincash", .keyHash,
    ⟨[0x76, 0xa0, 0x40, 0x53, 0xbd, 0xa0, 0xa8, 0x8b, 0xda, 0x51, 0x77, 0xb8, 0x6a, 0x15, 0xc3, 0xb2,
      0x9f, 0x55, 0x98, 0x73], rfl⟩⟩

theorem decode_encode_sample :
    Showable sample.network ∧
      encode sample = "bitcoincash:qpm2qsznhks23z7629mms6s4cwef74vcwvy22gdx6a" ∧
      decode "bchtest" (encode sample) = .ok sample ∧
      decode "bchtest" (encode sample).toUpper = .ok sample := by
  have showable : Showable sample.network := ⟨by decide, by decide, by decide, by decide⟩
  exact ⟨showable, by cbv, decode_encode sample showable "bchtest"⟩

/-- A text that is read is the text of its address, up to letter case, blanks around it and a
default network. Texts of one address thus differ in nothing else. -/
theorem encode_eq_normalForm_of_decode :
    (∀ defaultNetwork text address, decode defaultNetwork text = .ok address →
      encode address = normalForm defaultNetwork text) ∧
    (∀ firstDefault first secondDefault second address,
      decode firstDefault first = .ok address → decode secondDefault second = .ok address →
        normalForm firstDefault first = normalForm secondDefault second) := by
  have canonical : ∀ defaultNetwork text address, decode defaultNetwork text = .ok address →
      encode address = normalForm defaultNetwork text := by
    intro defaultNetwork text address read
    simp only [decode] at read
    split at read
    · cases read
    · split at read
      · cases read
      · obtain ⟨parts, -⟩ := decodeFolded_eq_ok_iff.mp read
        apply String.toList_inj.mp
        rw [toList_encode, normalForm]
        simp only [separate] at parts
        split at parts
        · rename_i cut
          subst parts
          obtain ⟨whole, -⟩ := Pieces.splitFirst?_eq_some_iff.mp cut
          rw [if_pos (by simp [whole]), String.toList_ofList, whole]
        · rename_i absent
          obtain ⟨name, shown⟩ := Prod.mk.injEq .. ▸ parts
          rw [if_neg (Pieces.splitFirst?_eq_none_iff.mp absent), String.toList_ofList, name, shown]
  refine ⟨canonical, ?_⟩
  intro firstDefault first secondDefault second address firstRead secondRead
  rw [← canonical _ _ _ firstRead, canonical _ _ _ secondRead]

theorem encode_sample_eq_normalForm :
    decode "BitcoinCash" " QPM2QSZNHKS23Z7629MMS6S4CWEF74VCWVY22GDX6A" = .ok sample ∧
      encode sample = normalForm "BitcoinCash" " QPM2QSZNHKS23Z7629MMS6S4CWEF74VCWVY22GDX6A" := by
  have trimmed : Blank.trim " QPM2QSZNHKS23Z7629MMS6S4CWEF74VCWVY22GDX6A".toList =
      "QPM2QSZNHKS23Z7629MMS6S4CWEF74VCWVY22GDX6A".toList := by decide
  have unmixed : ¬(Letters.hasLower "QPM2QSZNHKS23Z7629MMS6S4CWEF74VCWVY22GDX6A".toList ∧
      Letters.hasUpper "QPM2QSZNHKS23Z7629MMS6S4CWEF74VCWVY22GDX6A".toList) := by decide
  have read : decode "BitcoinCash" " QPM2QSZNHKS23Z7629MMS6S4CWEF74VCWVY22GDX6A" = .ok sample := by
    simp only [decode, trimmed, if_neg unmixed]
    rw [if_neg (by decide)]
    exact decodeFolded_eq_ok_iff.mpr ⟨by cbv, by decide⟩
  exact ⟨read, encode_eq_normalForm_of_decode.1 _ _ _ read⟩

end CashHerald.Address
