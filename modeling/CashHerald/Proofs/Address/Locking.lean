import CashHerald.Address.Basic
import CashHerald.Proofs.Address.Canonical

/-!
Which scripts pay to addresses. Main statements: the template of a script carries a hash exactly if
the script is the one that locks to this hash, so that an output pays to one address on a network or
to none, and the network name of an address can be shown as soon as the name it is made from has a
character, no colon and no blank at its start.
-/

namespace CashHerald

open Ledger

namespace Ledger.Script

/-- What stands between a fixed front and a fixed back. -/
theorem between?_eq_some_iff {front back script middle : Octets} :
    between? front back script = some middle ↔ script = front ++ (middle ++ back) := by
  unfold between?
  constructor
  · intro found
    split at found
    · rename_i fits
      obtain ⟨leads, ends, enough⟩ := fits
      obtain ⟨behind, rfl⟩ := List.isPrefixOf_iff_prefix.mp leads
      obtain ⟨before, same⟩ := List.isSuffixOf_iff_suffix.mp ends
      cases found
      -- The two ends do not overlap, so that the back ends what stands behind the front.
      have long : front.length ≤ before.length := by
        have lengths := congrArg List.length same
        simp only [List.length_append] at lengths enough
        omega
      obtain ⟨middle, rfl⟩ : front <+: before :=
        List.prefix_of_prefix_length_le ⟨behind, rfl⟩ ⟨back, same⟩ long
      obtain rfl : middle ++ back = behind := by
        rw [List.append_assoc] at same
        exact List.append_cancel_left same
      rw [List.drop_left, List.length_append, List.length_append, Nat.add_sub_cancel_left,
        Nat.add_sub_cancel, List.take_left]
    · cases found
  · rintro rfl
    have leads : front.isPrefixOf (front ++ (middle ++ back)) = true :=
      List.isPrefixOf_iff_prefix.mpr (List.prefix_append _ _)
    have ends : back.isSuffixOf (front ++ (middle ++ back)) = true :=
      List.isSuffixOf_iff_suffix.mpr ⟨front ++ middle, List.append_assoc _ _ _⟩
    have enough : front.length + back.length ≤ (front ++ (middle ++ back)).length := by
      simp only [List.length_append]
      omega
    rw [if_pos ⟨leads, ends, enough⟩, List.drop_left, List.length_append, List.length_append,
      Nat.add_sub_cancel_left, Nat.add_sub_cancel, List.take_left]

theorem hashBetween?_eq_some_iff {front back script : Octets} {hash : Hash160} :
    hashBetween? front back script = some hash ↔ script = front ++ (hash.octets ++ back) := by
  rw [← between?_eq_some_iff]
  unfold hashBetween?
  cases between? front back script with
  | none => simp
  | some middle =>
    simp only [Option.some.injEq]
    constructor
    · intro found
      split at found
      · cases found
        rfl
      · cases found
    · rintro rfl
      rw [dif_pos hash.length_octets]

end Ledger.Script

namespace AddressKind

/-- The script that locks to a hash. -/
def lockingScript (hash : Hash160) : AddressKind → Octets
  | .keyHash => [0x76, 0xa9, 20] ++ (hash.octets ++ [0x88, 0xac])
  | .scriptHash => [0xa9, 20] ++ (hash.octets ++ [0x87])

/-- Scripts that lock to different hashes, or in different ways, are different. -/
theorem lockingScript_inj {kind other : AddressKind} {hash another : Hash160}
    (same : kind.lockingScript hash = other.lockingScript another) :
    kind = other ∧ hash = another := by
  obtain ⟨octets, length⟩ := hash
  obtain ⟨otherOctets, otherLength⟩ := another
  cases kind <;> cases other <;> simp_all [lockingScript]

end AddressKind

namespace Address

/-- A template names an address exactly if it is the template that carries its hash. -/
theorem ofTemplate?_template_eq_some_iff {network : String} {script : Octets} {address : Address} :
    ofTemplate? network (Script.template script) = some address ↔
      address.network = Letters.lowerText network ∧
        script = address.kind.lockingScript address.hash := by
  obtain ⟨name, kind, hash⟩ := address
  have keyHash (found : Hash160) : Script.hashBetween? [0x76, 0xa9, 20] [0x88, 0xac] script =
      some found ↔ script = AddressKind.keyHash.lockingScript found :=
    Script.hashBetween?_eq_some_iff
  have scriptHash (found : Hash160) : Script.hashBetween? [0xa9, 20] [0x87] script = some found ↔
      script = AddressKind.scriptHash.lockingScript found := Script.hashBetween?_eq_some_iff
  unfold Script.template
  cases first : Script.hashBetween? [0x76, 0xa9, 20] [0x88, 0xac] script with
  | some found =>
    obtain rfl := (keyHash found).mp first
    simp only [ofTemplate?, onNetwork, Option.some.injEq, mk.injEq]
    constructor
    · rintro ⟨rfl, rfl, rfl⟩
      exact ⟨rfl, rfl⟩
    · rintro ⟨rfl, same⟩
      obtain ⟨rfl, rfl⟩ := AddressKind.lockingScript_inj same
      exact ⟨rfl, rfl, rfl⟩
  | none =>
    cases second : Script.hashBetween? [0xa9, 20] [0x87] script with
    | some found =>
      obtain rfl := (scriptHash found).mp second
      simp only [ofTemplate?, onNetwork, Option.some.injEq, mk.injEq]
      constructor
      · rintro ⟨rfl, rfl, rfl⟩
        exact ⟨rfl, rfl⟩
      · rintro ⟨rfl, same⟩
        obtain ⟨rfl, rfl⟩ := AddressKind.lockingScript_inj same
        exact ⟨rfl, rfl, rfl⟩
    | none =>
      -- Neither form fits, so that no hash is carried and no kind of script is the one at hand.
      have unlike : script ≠ kind.lockingScript hash := by
        rintro rfl
        cases kind with
        | keyHash => rw [(keyHash hash).mpr rfl] at first; cases first
        | scriptHash => rw [(scriptHash hash).mpr rfl] at second; cases second
      have nowhere : ofTemplate? network
          (if script.head? = some Script.dataMark then .data
            else if Script.isPayToKey script then .payToKey else .other) = none := by
        split
        · rfl
        · split <;> rfl
      simp only [nowhere, unlike, and_false, reduceCtorEq]

/-- The address that an output pays to, from its script. -/
theorem address?_locking_eq_some_iff {network : String} {value : UInt64} {script : Octets}
    {address : Address} :
    (Output.locking value script).address? network = some address ↔
      address.network = Letters.lowerText network ∧
        script = address.kind.lockingScript address.hash :=
  ofTemplate?_template_eq_some_iff

theorem toLower_eq_iff {character other : Char} (noLetter : other.isAlpha = false) :
    character.toLower = other ↔ character = other := by
  by_cases capital : character.isUpper
  · have letter : character.isAlpha = true := by simp [Char.isAlpha, capital]
    constructor
    · rintro rfl
      rw [Char.isAlpha_toLower_eq_isAlpha, letter] at noLetter
      cases noLetter
    · rintro rfl
      rw [letter] at noLetter
      cases noLetter
  · rw [Char.toLower_eq_of_not_isUpper capital]

theorem isBlank_toLower (character : Char) :
    Blank.isBlank character.toLower = Blank.isBlank character := by
  have none : Blank.characters.any Char.isAlpha = false := by decide
  have noLetter {blank : Char} (mem : blank ∈ Blank.characters) : blank.isAlpha = false := by
    simpa using List.any_eq_false.mp none blank mem
  rw [Bool.eq_iff_iff, Blank.isBlank, Blank.isBlank, List.contains_iff_mem, List.contains_iff_mem]
  constructor
  · intro mem
    rw [(toLower_eq_iff (noLetter mem)).mp rfl]
    exact mem
  · intro mem
    rwa [(toLower_eq_iff (noLetter mem)).mpr rfl]

/-- A network name in any letter case can be shown in small letters. -/
theorem showable_lowerText {network : String} (nonempty : network ≠ "")
    (noColon : ':' ∉ network.toList) (start : network.toList.head?.all (!Blank.isBlank ·)) :
    Showable (Letters.lowerText network) where
  nonempty := by
    intro empty
    have letters : Letters.lower network.toList = [] := by
      have shown := congrArg String.toList empty
      rwa [Letters.lowerText, String.toList_ofList] at shown
    exact nonempty (String.toList_inj.mp (List.map_eq_nil_iff.mp letters))
  noColon := by
    rw [Letters.lowerText, String.toList_ofList, Letters.lower, List.mem_map]
    rintro ⟨character, mem, lowered⟩
    rw [toLower_eq_iff (by decide)] at lowered
    exact noColon (lowered ▸ mem)
  noCapital := by
    simp [Letters.lowerText, Letters.lower, Letters.hasUpper]
  start := by
    rw [Letters.lowerText, String.toList_ofList, Letters.lower, List.head?_map, Option.all_map]
    simpa only [Function.comp_def, isBlank_toLower] using start

end Address

end CashHerald
