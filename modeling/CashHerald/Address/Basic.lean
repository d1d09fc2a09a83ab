import CashHerald.Ledger.Transaction
import CashHerald.Text.Letters

/-!
Destinations on the ledger: a network, a kind and a hash. Main statement: an output has an address
exactly when its template carries a hash.
-/

namespace CashHerald

inductive AddressKind where
  | keyHash
  | scriptHash
  deriving DecidableEq, Repr

/-- An address names a destination on a network. -/
structure Address where
  network : String
  kind : AddressKind
  hash : Ledger.Hash160
  deriving DecidableEq, Repr

namespace Address

/-- The address under a network name in lower case. -/
def onNetwork (network : String) (kind : AddressKind) (hash : Ledger.Hash160) : Address :=
  ⟨Letters.lowerText network, kind, hash⟩

/-- Two addresses pay the same destination, whatever their networks. -/
def sameDestination (first second : Address) : Bool :=
  first.kind == second.kind && first.hash == second.hash

/-- The address that a template pays to. -/
def ofTemplate? (network : String) : Ledger.Template → Option Address
  | .payToKeyHash hash => some (onNetwork network .keyHash hash)
  | .payToScriptHash hash => some (onNetwork network .scriptHash hash)
  | _ => none

theorem isSome_ofTemplate? (network : String) (template : Ledger.Template) :
    (ofTemplate? network template).isSome = template.hash?.isSome := by
  cases template <;> rfl

end Address

/-- The address that an output pays to. -/
def Ledger.Output.address? (network : String) (output : Ledger.Output) : Option Address :=
  Address.ofTemplate? network output.template

end CashHerald
