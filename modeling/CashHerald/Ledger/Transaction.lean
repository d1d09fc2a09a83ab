import CashHerald.Digest.Sha256
import CashHerald.Ledger.CompactSize
import CashHerald.Ledger.Script

/-!
Transactions and their wire format. A transaction is a version, its inputs and outputs behind
their counts, and a lock time; its identifier is the double hash of exactly these octets.
-/

namespace CashHerald.Ledger

/-- An input spends the output at an index of an earlier transaction. -/
structure Input where
  previousId : Octets
  previousIndex : UInt32
  script : Octets
  sequence : UInt32
  deriving DecidableEq, Repr

/-- An output locks a value, in satoshis, with a script, and keeps the template that the script was
found to have. -/
structure Output where
  value : UInt64
  script : Octets
  template : Template
  deriving DecidableEq, Repr

/-- The output that locks a value with a script. -/
def Output.locking (value : UInt64) (script : Octets) : Output :=
  ⟨value, script, Script.template script⟩

/-- The first octets of embedded data, for data outputs. -/
def Output.embeddedData? (output : Output) (limit : Nat) : Option Octets :=
  match output.template with
  | .data => Script.embeddedData? limit output.script
  | _ => none

structure Transaction where
  identifier : Octets
  version : UInt32
  inputs : List Input
  outputs : List Output
  lockTime : UInt32
  deriving DecidableEq, Repr

namespace Input

/-- An outpoint, an empty script's length and a sequence number. -/
def smallest : Nat := 41

def decoder : Decoder Input := do
  let previousId ← Decoder.take 32
  let previousIndex ← Decoder.word32
  let script ← CompactSize.octets
  let sequence ← Decoder.word32
  pure ⟨previousId, previousIndex, script, sequence⟩

end Input

namespace Output

/-- A value and an empty script's length. -/
def smallest : Nat := 9

def decoder : Decoder Output := do
  let value ← Decoder.word64
  let script ← CompactSize.octets
  pure (Output.locking value script)

end Output

namespace Transaction

/-- A version, two empty counts and a lock time. -/
def smallest : Nat := 10

/-- Reads one transaction and names it by the octets read. -/
def decoder : Decoder Transaction := do
  let first ← get
  let version ← Decoder.word32
  let inputs ← CompactSize.list Input.smallest Input.decoder
  let outputs ← CompactSize.list Output.smallest Output.decoder
  let lockTime ← Decoder.word32
  let last ← get
  pure ⟨Sha256.double (first.segment last), version, inputs, outputs, lockTime⟩

/-- Reads a transaction that fills the octets. -/
def decode (raw : Octets) : Except DecodeError Transaction := do
  let (transaction, last) ← decoder (Cursor.start raw)
  if last.remaining = 0 then pure transaction
  else throw (.trailingOctets last.remaining)

end Transaction

end CashHerald.Ledger
