import CashHerald.Hub.Command
import CashHerald.Hub.Dispatch
import CashHerald.Proofs.Address.Locking

/-!
Payments as subscribers see them. Main statement: the address that an announcement shows for an
output, sent back in a control message, subscribes to the outputs with the same script and to no
others, whatever the networks; and no other output is looked up by an address.
-/

namespace CashHerald.Hub

open Ledger

/-- An output is looked up by an address exactly if it pays to it. -/
theorem outputQuery?_eq_address_iff {network : String} {output : Output} {address : Address} :
    outputQuery? network output = some (.address address) ↔
      output.address? network = some address := by
  unfold outputQuery?
  cases output.address? network with
  | none => simp
  | some found => simp

theorem sameDestination_iff {first second : Address} :
    first.sameDestination second = true ↔ first.kind = second.kind ∧ first.hash = second.hash := by
  simp [Address.sameDestination]

/-- A subscription to an address matches what is looked up for an output exactly if the script of
the output locks to the destination. -/
theorem address_agrees_iff {address : Address} {network : String} {value : UInt64}
    {script : Octets} :
    (∃ query, outputQuery? network (Output.locking value script) = some query ∧
        (Subscription.address address).agrees query = true) ↔
      script = address.kind.lockingScript address.hash := by
  constructor
  · rintro ⟨query, asked, agrees⟩
    cases query with
    | address paid =>
      obtain ⟨kind, hash⟩ := sameDestination_iff.mp agrees
      obtain ⟨-, locks⟩ := Address.address?_locking_eq_some_iff.mp
        (outputQuery?_eq_address_iff.mp asked)
      rw [kind, hash]
      exact locks
    | _ => cases agrees
  · rintro rfl
    let paid : Address := ⟨Letters.lowerText network, address.kind, address.hash⟩
    have pays : (Output.locking value (address.kind.lockingScript address.hash)).address? network =
        some paid := Address.address?_locking_eq_some_iff.mpr ⟨rfl, rfl⟩
    exact ⟨.address paid, outputQuery?_eq_address_iff.mpr pays, sameDestination_iff.mpr ⟨rfl, rfl⟩⟩

/-- A client that asks for the address shown for an output gets the outputs with the same script. An
output for which none is shown has no script that locks to a hash, and is never looked up by an
address. -/
theorem subscriptionOf_shown_address {network : String} (nonempty : network ≠ "")
    (noColon : ':' ∉ network.toList) (start : network.toList.head?.all (!Blank.isBlank ·)) :
    (∀ (value : UInt64) script text,
      ((Output.locking value script).address? network).map Address.encode = some text →
        ∀ defaultNetwork members, Json.Value.textOf? "address" members = some text →
          ∃ address, Command.subscriptionOf defaultNetwork .address members =
              .ok (.address address) ∧
            ∀ (otherNetwork : String) (otherValue : UInt64) otherScript,
              (∃ query,
                outputQuery? otherNetwork (Output.locking otherValue otherScript) = some query ∧
                  (Subscription.address address).agrees query = true) ↔
                otherScript = script) ∧
    (∀ (value : UInt64) script, (Output.locking value script).address? network = none →
      (∀ (kind : AddressKind) hash, script ≠ kind.lockingScript hash) ∧
        ∀ (otherNetwork : String) (otherValue : UInt64) address,
          outputQuery? otherNetwork (Output.locking otherValue script) ≠
            some (.address address)) := by
  constructor
  · intro value script text shown defaultNetwork members asked
    obtain ⟨address, pays, rfl⟩ := Option.map_eq_some_iff.mp shown
    obtain ⟨name, locks⟩ := Address.address?_locking_eq_some_iff.mp pays
    have showable : Address.Showable address.network :=
      name ▸ Address.showable_lowerText nonempty noColon start
    have read := Address.decode_written showable defaultNetwork
    refine ⟨address, ?_, fun otherNetwork otherValue otherScript => ?_⟩
    · simp only [Command.subscriptionOf, asked, read]
    · rw [locks]
      exact address_agrees_iff
  · intro value script nowhere
    have unlike (kind : AddressKind) (hash : Hash160) : script ≠ kind.lockingScript hash := by
      intro locks
      have pays : (Output.locking value script).address? network =
          some ⟨Letters.lowerText network, kind, hash⟩ :=
        Address.address?_locking_eq_some_iff.mpr ⟨rfl, locks⟩
      rw [nowhere] at pays
      cases pays
    refine ⟨unlike, fun otherNetwork otherValue address asked => ?_⟩
    exact unlike _ _ (Address.address?_locking_eq_some_iff.mp
      (outputQuery?_eq_address_iff.mp asked)).2

/-- The address of an output to a key hash, shown on one network and asked for on another. -/
theorem subscriptionOf_shown_keyHash :
    let script := AddressKind.keyHash.lockingScript Address.sample.hash
    let members := [("address", .text "bitcoincash:qpm2qsznhks23z7629mms6s4cwef74vcwvy22gdx6a")]
    "BitcoinCash" ≠ "" ∧ ':' ∉ "BitcoinCash".toList ∧
      "BitcoinCash".toList.head?.all (!Blank.isBlank ·) ∧
      ((Output.locking 1234 script).address? "BitcoinCash").map Address.encode =
        some "bitcoincash:qpm2qsznhks23z7629mms6s4cwef74vcwvy22gdx6a" ∧
      (∃ address, Command.subscriptionOf "bchtest" .address members = .ok (.address address) ∧
        ∃ query, outputQuery? "bchtest" (Output.locking 7 script) = some query ∧
          (Subscription.address address).agrees query = true) ∧
      (Output.locking 0 [0x6a]).address? "BitcoinCash" = none ∧
      ∀ address, outputQuery? "bchtest" (Output.locking 0 [0x6a]) ≠ some (.address address) := by
  intro script members
  have nonempty : "BitcoinCash" ≠ "" := by decide
  have noColon : ':' ∉ "BitcoinCash".toList := by decide
  have start : "BitcoinCash".toList.head?.all (!Blank.isBlank ·) := by decide
  have pays : (Output.locking 1234 script).address? "BitcoinCash" = some Address.sample :=
    Address.address?_locking_eq_some_iff.mpr ⟨by decide, rfl⟩
  have shown : ((Output.locking 1234 script).address? "BitcoinCash").map Address.encode =
      some "bitcoincash:qpm2qsznhks23z7629mms6s4cwef74vcwvy22gdx6a" := by
    rw [pays]
    cbv
  have nowhere : (Output.locking 0 [0x6a]).address? "BitcoinCash" = none := by decide
  obtain ⟨asked, unasked⟩ := subscriptionOf_shown_address nonempty noColon start
  obtain ⟨address, subscribed, only⟩ := asked _ _ _ shown "bchtest" members rfl
  exact ⟨nonempty, noColon, start, shown, ⟨address, subscribed, (only "bchtest" 7 script).mpr rfl⟩,
    nowhere, (unasked _ _ nowhere).2 "bchtest" 0⟩

end CashHerald.Hub
