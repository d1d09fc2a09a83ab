import CashHerald.Address.Text
import CashHerald.Json.Value
import CashHerald.Ledger.Block

/-!
What subscribers are told: a block by its hash, its predecessor and its number of transactions, and
a transaction by its identifier, its number of inputs and all its outputs.
-/

namespace CashHerald.Hub.Announcement

/-- An identifier as people write it, the last octet first. -/
def displayed (identifier : Octets) : Json.Value :=
  .text (Hex.encode identifier.reverse)

/-- The announcement of a block. -/
def ofBlock (block : Ledger.Block) : Json.Value :=
  .object [
    ("op", .text "new_block"),
    ("blockHash", displayed block.hash),
    ("prevBlockHash", displayed block.header.previousHash),
    ("transactions", .integer block.transactions.length)]

/-- An output in an announcement; one that pays no address shows an empty one. -/
def ofOutput (network : String) (output : Ledger.Output) : Json.Value :=
  .object [
    ("type", .text output.template.label),
    ("address", .text (((output.address? network).map Address.encode).getD "")),
    ("value", .text (toString output.value)),
    ("script", .text (Hex.encode output.script))]

/-- The announcement of a transaction. -/
def ofTransaction (network : String) (transaction : Ledger.Transaction) : Json.Value :=
  .object [
    ("op", .text "new_tx"),
    ("txid", displayed transaction.identifier),
    ("inputs", .integer transaction.inputs.length),
    ("outputs", .array (transaction.outputs.map (ofOutput network)))]

end CashHerald.Hub.Announcement
