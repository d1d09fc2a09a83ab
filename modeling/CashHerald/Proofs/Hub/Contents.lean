import CashHerald.Hub.Announcement
import CashHerald.Proofs.Json.RoundTrip
import CashHerald.Proofs.Text.Hexadecimal
import Mathlib

/-!
What the text of an announcement says. Main statements: the text of a transaction names it by its
identifier and has one item for every output, in their order, and the text of a block names it and
the one before it; both are read as what they say, unless they count more than 64 bits can hold.
-/

namespace CashHerald

/-- A text writes an object with some members, and is read as that object if a number that the
members count fits into 64 bits. -/
structure Json.Tells (text : String) (count : Nat) (members : List (String × Json.Value)) :
    Prop where
  written : text = Writer.render (.object members)
  read : count < UInt64.size → parse text = .ok (.object members)

theorem Json.tells_render {count : Nat} {members : List (String × Json.Value)}
    (plain : count < UInt64.size → Plain Parser.depthLimit (.object members)) :
    Tells (Writer.render (.object members)) count members :=
  ⟨rfl, fun fits => parse_render (plain fits)⟩

namespace Hub

open Json (Plain)

/-- An item of an announcement shows an output: the form of its script, the address that it pays or
nothing, its value in decimal, and its script. -/
inductive ShowsOutput (network : String) (output : Ledger.Output) : Json.Value → Prop
  | item {shown script : String}
      (pays : ∀ address, output.address? network = some address → shown = address.encode)
      (unpaid : output.address? network = none → shown = "")
      (locks : Hex.Shows output.script script) :
    ShowsOutput network output (.object [
      ("type", .text output.template.label),
      ("address", .text shown),
      ("value", .text (toString output.value)),
      ("script", .text script)])

/-- A text announces a transaction: by its identifier with the last octet first, the number of its
inputs, and one item for every output, in their order. -/
inductive AnnouncesTransaction (network : String) (transaction : Ledger.Transaction)
    (text : String) : Prop
  | told {identifier : String} {items : List Json.Value}
      (names : Hex.Shows transaction.identifier.reverse identifier)
      (outputs : List.Forall₂ (ShowsOutput network) transaction.outputs items)
      (tells : Json.Tells text transaction.inputs.length [
        ("op", .text "new_tx"),
        ("txid", .text identifier),
        ("inputs", .integer transaction.inputs.length),
        ("outputs", .array items)])

/-- A text announces a block: by its hash and that of the block before it, with the last octet
first, and the number of its transactions. -/
inductive AnnouncesBlock (block : Ledger.Block) (text : String) : Prop
  | told {hash previous : String}
      (names : Hex.Shows block.hash.reverse hash)
      (follows : Hex.Shows block.header.previousHash.reverse previous)
      (tells : Json.Tells text block.transactions.length [
        ("op", .text "new_block"),
        ("blockHash", .text hash),
        ("prevBlockHash", .text previous),
        ("transactions", .integer block.transactions.length)])

theorem showsOutput_ofOutput (network : String) (output : Ledger.Output) :
    ShowsOutput network output (Announcement.ofOutput network output) := by
  refine .item (fun address paid => ?_) (fun unpaid => ?_) (Hex.shows_encode output.script)
  · rw [paid]
    rfl
  · rw [unpaid]
    rfl

theorem plain_count {depth count : Nat} (fits : count < UInt64.size) :
    Plain depth (.integer count) :=
  .integer (by omega) (Int.ofNat_lt.mpr fits)

/-- An output is shown without numbers. -/
theorem plain_ofOutput (network : String) (output : Ledger.Output) (depth : Nat) :
    Plain (depth + 1) (Announcement.ofOutput network output) := by
  refine .object ?_ ?_
  · rintro member ⟨⟩
    exact (by decide : "type" ≠ Json.Parser.enclosingName)
  · simp only [List.forall_mem_cons]
    exact ⟨.text _, .text _, .text _, .text _, List.forall_mem_nil _⟩

theorem announcesTransaction_ofTransaction (network : String) (transaction : Ledger.Transaction) :
    AnnouncesTransaction network transaction
      (Json.Writer.render (Announcement.ofTransaction network transaction)) := by
  refine .told (Hex.shows_encode _) ?_ (Json.tells_render fun fits => .object ?_ ?_)
  · rw [List.forall₂_map_right_iff]
    exact List.forall₂_same.mpr fun output _ => showsOutput_ofOutput network output
  · rintro member ⟨⟩
    decide
  · have items : ∀ item ∈ transaction.outputs.map (Announcement.ofOutput network),
        Plain 125 item := by
      intro item mem
      obtain ⟨output, -, rfl⟩ := List.mem_map.mp mem
      exact plain_ofOutput network output 124
    simp only [List.forall_mem_cons]
    exact ⟨.text _, .text _, plain_count fits, .array items, List.forall_mem_nil _⟩

theorem announcesBlock_ofBlock (block : Ledger.Block) :
    AnnouncesBlock block (Json.Writer.render (Announcement.ofBlock block)) := by
  refine .told (Hex.shows_encode _) (Hex.shows_encode _)
    (Json.tells_render fun fits => .object ?_ ?_)
  · rintro member ⟨⟩
    decide
  · simp only [List.forall_mem_cons]
    exact ⟨.text _, .text _, .text _, plain_count fits, List.forall_mem_nil _⟩

end Hub

end CashHerald
