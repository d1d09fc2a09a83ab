import CashHerald.Address.Basic

/-!
What a client may subscribe to, and when a subscription matches what an event offers. Main
statement: matching is symmetric.
-/

namespace CashHerald.Hub

/-- The first octets of embedded data, at most sixteen. -/
structure DataLead where
  octets : Octets
  length_le : octets.length ≤ 16
  deriving DecidableEq, Repr

namespace DataLead

def sizeLimit : Nat := 16

/-- The octets as a lead, if they are not too many. -/
def ofOctets? (octets : Octets) : Option DataLead :=
  if fits : octets.length ≤ 16 then some ⟨octets, fits⟩ else none

/-- The lead of some data. -/
def truncated (data : Octets) : DataLead :=
  ⟨data.take 16, by rw [List.length_take]; omega⟩

/-- One of two leads starts with the other. -/
def agrees (first second : DataLead) : Bool :=
  Octets.eitherLeads first.octets second.octets

end DataLead

inductive Topic where
  | block
  | transaction
  | address
  | data
  deriving DecidableEq, Repr

/-- The name of a topic. -/
def Topic.name : Topic → String
  | .block => "block"
  | .transaction => "transaction"
  | .address => "address"
  | .data => "opreturn"

/-- A subscription to all blocks, to all transactions, or to the outputs that pay an address or
embed data. -/
inductive Subscription where
  | block
  | transaction
  | address (address : Address)
  | data (lead : DataLead)
  deriving DecidableEq, Repr

namespace Subscription

def topic : Subscription → Topic
  | .block => .block
  | .transaction => .transaction
  | .address _ => .address
  | .data _ => .data

/-- Addresses match by destination, and leads when one starts with the other. -/
def agrees : Subscription → Subscription → Bool
  | .block, .block => true
  | .transaction, .transaction => true
  | .address first, .address second => first.sameDestination second
  | .data first, .data second => first.agrees second
  | _, _ => false

/-- Matching is symmetric. -/
theorem agrees_comm (first second : Subscription) :
    first.agrees second = second.agrees first := by
  cases first <;> cases second <;>
    simp [agrees, Address.sameDestination, DataLead.agrees, Octets.eitherLeads, BEq.comm,
      Bool.or_comm]

end Subscription

end CashHerald.Hub
