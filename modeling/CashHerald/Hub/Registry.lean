import CashHerald.Hub.Subscription

/-!
The clients that are tracked, with the subscriptions of each in the order they were made. Main
statements: what each change does to the subscriptions of every client.
-/

namespace CashHerald.Hub

structure Entry where
  client : Nat
  subscriptions : List Subscription
  deriving DecidableEq, Repr

structure Registry where
  entries : List Entry
  deriving DecidableEq, Repr

namespace Registry

def empty : Registry :=
  ⟨[]⟩

/-- The subscriptions of a client, if it is tracked. -/
def subscriptions? (registry : Registry) (client : Nat) : Option (List Subscription) :=
  (registry.entries.find? (·.client = client)).map Entry.subscriptions

def isTracked (registry : Registry) (client : Nat) : Bool :=
  (registry.subscriptions? client).isSome

/-- Tracks a client; one that is tracked already keeps its subscriptions. -/
def track (registry : Registry) (client : Nat) : Registry :=
  if registry.isTracked client then registry else ⟨registry.entries ++ [⟨client, []⟩]⟩

/-- Forgets a client with its subscriptions. -/
def untrack (registry : Registry) (client : Nat) : Registry :=
  ⟨registry.entries.filter (·.client ≠ client)⟩

/-- Changes the subscriptions of a client. -/
def update (registry : Registry) (client : Nat)
    (change : List Subscription → List Subscription) : Registry :=
  ⟨registry.entries.map fun entry =>
    if entry.client = client then ⟨client, change entry.subscriptions⟩ else entry⟩

/-- Adds a subscription behind the others of a client. -/
def subscribe (registry : Registry) (client : Nat) (subscription : Subscription) : Registry :=
  registry.update client (· ++ [subscription])

/-- The first subscription of a client that a query matches. -/
def firstMatch? (registry : Registry) (client : Nat) (query : Subscription) :
    Option Subscription :=
  (registry.subscriptions? client).bind fun subscriptions =>
    subscriptions.find? (·.agrees query)

/-- Removes the first subscription of a client that a query matches. -/
def unsubscribe (registry : Registry) (client : Nat) (query : Subscription) : Registry :=
  registry.update client (List.eraseP (·.agrees query))

/-- The clients with a subscription that a query matches. -/
def matching (registry : Registry) (query : Subscription) : List Nat :=
  (registry.entries.filter fun entry => entry.subscriptions.any (·.agrees query)).map Entry.client

def size (registry : Registry) : Nat :=
  registry.entries.length

/-- The number of a client's subscriptions, zero if it is not tracked. -/
def subscriptionCount (registry : Registry) (client : Nat) : Nat :=
  ((registry.subscriptions? client).getD []).length

theorem subscriptions?_update_self (registry : Registry) (client : Nat)
    (change : List Subscription → List Subscription) :
    (registry.update client change).subscriptions? client =
      (registry.subscriptions? client).map change := by
  simp only [subscriptions?, update]
  induction registry.entries with
  | nil => rfl
  | cons entry rest inductionHypothesis =>
    by_cases same : entry.client = client
    · simp [same]
    · simpa [same] using inductionHypothesis

theorem subscriptions?_update_other (registry : Registry) {client other : Nat}
    (change : List Subscription → List Subscription) (differs : other ≠ client) :
    (registry.update client change).subscriptions? other = registry.subscriptions? other := by
  simp only [subscriptions?, update]
  induction registry.entries with
  | nil => rfl
  | cons entry rest inductionHypothesis =>
    by_cases same : entry.client = client
    · have apart : entry.client ≠ other := by
        rw [same]
        exact Ne.symm differs
      simpa [same, Ne.symm differs, apart] using inductionHypothesis
    · by_cases wanted : entry.client = other
      · subst wanted
        simp [same]
      · simpa [same, wanted] using inductionHypothesis

theorem subscriptions?_untrack_self (registry : Registry) (client : Nat) :
    (registry.untrack client).subscriptions? client = none := by
  simp [subscriptions?, untrack]

end Registry

end CashHerald.Hub
