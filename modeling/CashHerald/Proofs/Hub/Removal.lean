import CashHerald.Proofs.Hub.Confinement

/-!
What a subscription leaves behind when it is added and then removed. Removal takes the first
subscription that matches, which need not be the one that was added. Main statement: every query
finds the same clients as before, unless what was taken instead of the added subscription is missed
by the query or the added one makes up for more than that.
-/

namespace CashHerald.Hub

namespace Subscription

theorem agrees_self (subscription : Subscription) : subscription.agrees subscription = true := by
  cases subscription <;>
    simp [agrees, Address.sameDestination, DataLead.agrees, Octets.eitherLeads]

/-- Matching carries over to a third subscription, data leads apart. -/
theorem agrees_congr {first second : Subscription} (whole : second.topic ≠ .data)
    (same : first.agrees second = true) (query : Subscription) :
    first.agrees query = second.agrees query := by
  cases second with
  | data lead => exact absurd rfl whole
  | address address =>
    cases first with
    | address other =>
      obtain ⟨kind, hash⟩ : other.kind = address.kind ∧ other.hash = address.hash := by
        simpa [agrees, Address.sameDestination] using same
      cases query <;> simp [agrees, Address.sameDestination, kind, hash]
    | _ => cases same
  | block =>
    cases first with
    | block => rfl
    | _ => cases same
  | transaction =>
    cases first with
    | transaction => rfl
    | _ => cases same

end Subscription

namespace Registry

/-- A query finds the clients of whose subscriptions it matches one. -/
theorem mem_matching_iff {registry : Registry} (distinct : registry.clients.Nodup) {client : Nat}
    {query : Subscription} :
    client ∈ registry.matching query ↔ (registry.held client).any (·.agrees query) = true := by
  rw [← List.count_pos_iff, count_matching distinct]
  split
  · rename_i found
    exact iff_of_true Nat.one_pos found
  · rename_i missed
    exact iff_of_false (Nat.lt_irrefl 0) missed

theorem Confined.trans {client : Nat} {before between after : Registry}
    (first : Confined client before between) (second : Confined client between after) :
    Confined client before after := by
  refine ⟨fun differs => (second.others differs).trans (first.others differs),
    fun distinct => second.distinct (first.distinct distinct), fun mem => ?_⟩
  rcases second.clients mem with mem | itself
  · exact first.clients mem
  · exact .inr itself

end Registry

/-- Adding a subscription to others and then removing what it matches first makes no difference to a
query: what is removed instead of the subscription matches the query just as the subscription does,
or another one that is left matches it. -/
def Restores (held : List Subscription) (subscription query : Subscription) : Prop :=
  ∀ earlier first later, held = earlier ++ first :: later →
    (∀ other ∈ earlier, other.agrees subscription = false) → first.agrees subscription = true →
      first.agrees query = subscription.agrees query ∨
        (earlier ++ later).any (·.agrees query) = true

section Restores

variable {held earlier later : List Subscription} {first subscription query : Subscription}

/-- Removal takes the first subscription that matches and leaves the others. -/
theorem eraseP_of_first (others : ∀ other ∈ earlier, other.agrees subscription = false)
    (agrees : first.agrees subscription = true) :
    (earlier ++ first :: later).eraseP (·.agrees subscription) = earlier ++ later := by
  have missed : ∀ other ∈ earlier, ¬ other.agrees subscription = true := fun other mem =>
    Bool.not_eq_true _ ▸ others other mem
  rw [List.eraseP_append_right (first :: later) missed]
  simp only [List.eraseP_cons, agrees, cond_true]

/-- A subscription is removed again where nothing else matches it. -/
theorem eraseP_concat_of_missed (missed : ∀ other ∈ held, other.agrees subscription = false) :
    (held ++ [subscription]).eraseP (·.agrees subscription) = held := by
  have removed : _ = held ++ [] := eraseP_of_first missed subscription.agrees_self
  rwa [List.append_nil] at removed

/-- Where something else is removed, a query notices unless that and the added subscription match it
alike, or another one does. -/
theorem any_eraseP_concat_iff_of_first
    (others : ∀ other ∈ earlier, other.agrees subscription = false)
    (agrees : first.agrees subscription = true) :
    (((earlier ++ first :: later) ++ [subscription]).eraseP (·.agrees subscription)).any
          (·.agrees query) =
        (earlier ++ first :: later).any (·.agrees query) ↔
      (first.agrees query = subscription.agrees query ∨
        (earlier ++ later).any (·.agrees query) = true) := by
  rw [List.append_assoc, List.cons_append, eraseP_of_first others agrees]
  simp only [List.any_append, List.any_cons, List.any_nil, Bool.or_false]
  cases earlier.any (·.agrees query) <;> cases later.any (·.agrees query) <;>
    cases first.agrees query <;> cases subscription.agrees query <;> decide

/-- A query is answered as before exactly if the removal makes up for what was added. -/
theorem any_eraseP_concat_iff :
    ((held ++ [subscription]).eraseP (·.agrees subscription)).any (·.agrees query) =
        held.any (·.agrees query) ↔
      Restores held subscription query := by
  constructor
  · rintro same earlier first later rfl others agrees
    exact (any_eraseP_concat_iff_of_first others agrees).mp same
  · intro restores
    by_cases found : ∃ other ∈ held, other.agrees subscription = true
    · obtain ⟨other, mem, agrees⟩ := found
      obtain ⟨first, earlier, later, others, agrees, rfl, -⟩ :=
        List.exists_of_eraseP (p := (·.agrees subscription)) mem agrees
      have missed : ∀ other ∈ earlier, other.agrees subscription = false := fun other mem =>
        Bool.eq_false_of_not_eq_true (others other mem)
      exact (any_eraseP_concat_iff_of_first missed agrees).mpr
        (restores earlier first later rfl missed agrees)
    · have missed : ∀ other ∈ held, other.agrees subscription = false := fun other mem =>
        Bool.eq_false_of_not_eq_true fun agrees => found ⟨other, mem, agrees⟩
      rw [eraseP_concat_of_missed missed]

/-- Nothing is lost when no data lead is concerned. -/
theorem restores_of_ne_data (held : List Subscription) (query : Subscription)
    (whole : subscription.topic ≠ .data) : Restores held subscription query :=
  fun _earlier _first _later _split _others agrees =>
    .inl (Subscription.agrees_congr whole agrees query)

end Restores

section Hubs

variable (hub : Hub) (client : Nat) (subscription : Subscription)

/-- The hub after a client has added a subscription and removed it again. -/
def resubscribed : Hub :=
  ((hub.subscribe client subscription).1.unsubscribe client subscription).1

theorem confined_resubscribed :
    Registry.Confined client hub.registry (hub.resubscribed client subscription).registry := by
  have added := hub.confined_subscribe client subscription
  have removed := (hub.subscribe client subscription).1.confined_unsubscribe client subscription
  exact added.registry.trans removed.registry

theorem subscriptions?_resubscribed :
    (hub.resubscribed client subscription).registry.subscriptions? client =
      (hub.registry.subscriptions? client).map fun held =>
        (held ++ [subscription]).eraseP (·.agrees subscription) := by
  obtain ⟨left, -⟩ := (hub.subscribe client subscription).1.unsubscribe_eq client subscription
  rw [resubscribed, left, subscriptions?_subscribe, Option.map_map]
  rfl

end Hubs

/-- Adding a subscription and removing it again leaves the clients that a query finds as they were
exactly if what was removed makes up for what was added. That is so for every query unless data
leads are concerned. -/
theorem matching_resubscribed_iff {hub : Hub} (distinct : hub.registry.clients.Nodup)
    {client : Nat} {held : List Subscription}
    (tracked : hub.registry.subscriptions? client = some held) (subscription query : Subscription) :
    ((∀ found, found ∈ (hub.resubscribed client subscription).registry.matching query ↔
          found ∈ hub.registry.matching query) ↔
        Restores held subscription query) ∧
      (subscription.topic ≠ .data → Restores held subscription query) := by
  have confined := hub.confined_resubscribed client subscription
  have holding : hub.registry.held client = held := by
    simp only [Registry.held, tracked, Option.getD_some]
  have left : (hub.resubscribed client subscription).registry.held client =
      (held ++ [subscription]).eraseP (·.agrees subscription) := by
    simp only [Registry.held, subscriptions?_resubscribed, tracked, Option.map_some,
      Option.getD_some]
  refine ⟨?_, restores_of_ne_data held query⟩
  rw [← any_eraseP_concat_iff, ← left, ← holding, Bool.eq_iff_iff]
  simp only [Registry.mem_matching_iff distinct,
    Registry.mem_matching_iff (confined.distinct distinct)]
  refine ⟨fun restored => restored client, fun same found => ?_⟩
  by_cases itself : found = client
  · rw [itself]
    exact same
  · rw [Registry.held, confined.others itself]
    rfl

/-- A subscription to data with given first octets. -/
def leading (octets : Octets) (short : octets.length ≤ 16) : Subscription :=
  .data ⟨octets, short⟩

/-- A hub whose only client asks for all data that start with one octet. -/
def oneLead : Hub :=
  (((start "bitcoincash").addClient 0).subscribe 0 (leading [0xaa] (by decide))).1

/-- The client adds a longer lead and removes it, and what goes is the lead that it had: it is not
found any more for data that only the shorter lead matches. -/
theorem unmatched_resubscribed_oneLead :
    oneLead.registry.matching (leading [0xaa, 0xcc] (by decide)) = [0] ∧
      (oneLead.resubscribed 0 (leading [0xaa, 0xbb] (by decide))).registry.matching
        (leading [0xaa, 0xcc] (by decide)) = [] := by
  decide

/-- Of the same two calls a query for the longer lead itself takes no notice. -/
theorem matching_resubscribed_oneLead :
    (∀ found,
      found ∈ (oneLead.resubscribed 0 (leading [0xaa, 0xbb] (by decide))).registry.matching
          (leading [0xaa, 0xbb] (by decide)) ↔
        found ∈ oneLead.registry.matching (leading [0xaa, 0xbb] (by decide))) ↔
      Restores [leading [0xaa] (by decide)] (leading [0xaa, 0xbb] (by decide))
        (leading [0xaa, 0xbb] (by decide)) := by
  have distinct : oneLead.registry.clients.Nodup := by decide
  have tracked : oneLead.registry.subscriptions? 0 = some [leading [0xaa] (by decide)] := rfl
  exact (matching_resubscribed_iff distinct tracked _ _).1

end CashHerald.Hub
