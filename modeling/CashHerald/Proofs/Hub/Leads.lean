import CashHerald.Hub.Dispatch
import CashHerald.Proofs.Hub.Removal
import CashHerald.Proofs.Hub.Requests
import CashHerald.Proofs.Ledger.Pushes

/-!
Embedded data as subscribers see them. A data output is looked up by its first sixteen octets only,
and a lead has no more than that. Main statement: a lead matches what is looked up exactly if it and
all data of the output agree as far as both go.
-/

namespace CashHerald

namespace Octets

variable {lead data : Octets} {limit : Nat}

theorem eitherLeads_iff : eitherLeads lead data = true ↔ lead <+: data ∨ data <+: lead := by
  rw [eitherLeads, Bool.or_eq_true, List.isPrefixOf_iff_prefix, List.isPrefixOf_iff_prefix]

/-- To compare with a lead, as many octets are enough as the lead may have. -/
theorem eitherLeads_take_iff (fits : lead.length ≤ limit) :
    eitherLeads lead (data.take limit) = true ↔ lead <+: data ∨ data <+: lead := by
  rw [eitherLeads_iff]
  constructor
  · rintro (leads | follows)
    · exact .inl (List.prefix_take_iff.mp leads).1
    · rcases Nat.le_total data.length limit with short | long
      · rw [List.take_of_length_le short] at follows
        exact .inr follows
      · -- The octets that are kept are as many as the lead can have.
        have whole : data.take limit = lead := by
          apply follows.eq_of_length_le
          rw [List.length_take_of_le long]
          exact fits
        rw [← whole]
        exact .inl (List.take_prefix limit data)
  · rintro (leads | follows)
    · exact .inl (List.prefix_take_iff.mpr ⟨leads, fits⟩)
    · exact .inr ((List.take_prefix limit data).trans follows)

end Octets

namespace Ledger.Script

/-- A push takes more octets than its payload. -/
theorem Pushed.length_lt {payload push : Octets} (pushed : Pushed payload push) :
    payload.length < push.length := by
  cases pushed with
  | direct present few => simp
  | sized known fits =>
    simp only [List.length_cons, List.length_append]
    omega

/-- A script is not shorter than all that it pushes. -/
theorem Written.length_flatten_le {script tail : Octets} {payloads pushes : List Octets}
    (written : Written script payloads pushes tail) : payloads.flatten.length ≤ script.length := by
  obtain ⟨rfl, pushed, -⟩ := written
  induction pushed with
  | nil => simp
  | cons first _ inductionHypothesis =>
    have longer := first.length_lt
    simp only [List.flatten_cons, List.length_append] at inductionHypothesis ⊢
    omega

/-- Only a script with the data mark has the template of data. -/
theorem head?_of_template_eq_data {script : Octets} (isData : template script = .data) :
    script.head? = some dataMark := by
  unfold template at isData
  split at isData
  · cases isData
  · split at isData
    · cases isData
    · split at isData
      · assumption
      · split at isData <;> cases isData

/-- A data output has some data, and every limit cuts these and no others. -/
theorem exists_embedded {script : Octets} (isData : template script = .data) :
    ∃ data : Octets, data.length ≤ script.length ∧
      ∀ limit, embeddedData? limit script = some (data.take limit) := by
  obtain ⟨rest, rfl⟩ := List.head?_eq_some_iff.mp (head?_of_template_eq_data isData)
  obtain ⟨payloads, pushes, tail, written⟩ := Written.exists_written rest
  exact ⟨payloads.flatten, Nat.le_succ_of_le written.length_flatten_le, written.embeddedData?_eq⟩

end Ledger.Script

namespace Hub

open Ledger

/-- A lead is read from its text in hexadecimal. -/
theorem leadOf_encode (lead : DataLead) :
    Command.leadOf (Hex.encode lead.octets).toList = .ok lead :=
  leadOf_of_lower (Hex.decode?_eq_some_iff.mp (Hex.decode?_encode lead.octets))

/-- Cutting data to the size of a lead and taking their lead keeps what their lead has. -/
theorem truncated_take (data : Octets) :
    DataLead.truncated (data.take DataLead.sizeLimit) = DataLead.truncated data := by
  simp only [DataLead.truncated, DataLead.sizeLimit, List.take_take, Nat.min_self]

/-- The lead of data is as good as all of them. -/
theorem agrees_truncated_iff (lead : DataLead) (data : Octets) :
    (Subscription.data lead).agrees (.data (DataLead.truncated data)) = true ↔
      lead.octets <+: data ∨ data <+: lead.octets :=
  Octets.eitherLeads_take_iff lead.length_le

/-- A data output is looked up by the lead of its data. -/
theorem outputQuery?_of_embedded {script data : Octets} (isData : Script.template script = .data)
    (embedded : ∀ limit, Script.embeddedData? limit script = some (data.take limit))
    (network : String) (value : UInt64) :
    outputQuery? network (Output.locking value script) =
      some (.data (DataLead.truncated data)) := by
  simp only [outputQuery?, Output.address?, Output.embeddedData?, Output.locking, isData,
    Address.ofTemplate?, embedded, Option.map_some, truncated_take]

/-- Of all data of an output, which no limit from the length of its script on cuts, only the lead is
looked up, and no match is lost by that: every lead that a client asks for matches it exactly if the
lead and the data agree as far as both go. So the output finds the clients that hold such a lead. -/
theorem found_by_lead {script : Octets} (isData : Script.template script = .data) :
    ∃ data : Octets,
      (∀ limit, script.length ≤ limit → Script.embeddedData? limit script = some data) ∧
      ∀ network value, ∃ query, outputQuery? network (Output.locking value script) = some query ∧
        (∀ lead : DataLead,
          (∀ defaultNetwork members,
            Json.Value.textOf? "prefix" members = some (Hex.encode lead.octets) →
              Command.subscriptionOf defaultNetwork .data members = .ok (.data lead)) ∧
          ((Subscription.data lead).agrees query = true ↔
            lead.octets <+: data ∨ data <+: lead.octets)) ∧
        ∀ registry : Registry, registry.clients.Nodup → ∀ client,
          client ∈ registry.matching query ↔ ∃ lead, .data lead ∈ registry.held client ∧
            (lead.octets <+: data ∨ data <+: lead.octets) := by
  obtain ⟨data, few, embedded⟩ := Script.exists_embedded isData
  refine ⟨data, fun limit enough => ?_, fun network value =>
    ⟨_, outputQuery?_of_embedded isData embedded network value, fun lead => ⟨?_, ?_⟩, ?_⟩⟩
  · rw [embedded, List.take_of_length_le (few.trans enough)]
  · intro defaultNetwork members asked
    simp only [Command.subscriptionOf, asked, leadOf_encode]
    rfl
  · exact agrees_truncated_iff lead data
  · intro registry distinct client
    rw [Registry.mem_matching_iff distinct, List.any_eq_true]
    constructor
    · rintro ⟨held, mem, agrees⟩
      cases held with
      | data lead => exact ⟨lead, mem, (agrees_truncated_iff lead data).mp agrees⟩
      | _ => cases agrees
    · rintro ⟨lead, mem, agree⟩
      exact ⟨_, mem, (agrees_truncated_iff lead data).mpr agree⟩

/-- Data of twenty octets in one push: their first sixteen are asked for, and the first two, and two
that they do not start with. -/
theorem found_by_lead_longPush :
    let data : Octets := [1, 2, 3, 4, 5, 6, 7, 8, 9, 10, 11, 12, 13, 14, 15, 16, 17, 18, 19, 20]
    Script.template (0x6a :: 20 :: data) = .data ∧
      ∃ query, outputQuery? "bitcoincash" (Output.locking 546 (0x6a :: 20 :: data)) = some query ∧
        (Subscription.data (DataLead.truncated data)).agrees query = true ∧
        (Subscription.data ⟨[1, 2], by decide⟩).agrees query = true ∧
        (Subscription.data ⟨[1, 3], by decide⟩).agrees query = false := by
  intro data
  have isData : Script.template (0x6a :: 20 :: data) = .data := by decide
  have written : Script.Written (20 :: data) [data] [20 :: data] [] :=
    ⟨by decide, .cons (.direct (by decide) (by decide)) .nil, .nothing⟩
  obtain ⟨all, uncut, found⟩ := found_by_lead isData
  obtain rfl : data = all :=
    Option.some.inj ((written.embeddedData?_eq 22).symm.trans (uncut 22 (by decide)))
  obtain ⟨query, asked, leads, -⟩ := found "bitcoincash" 546
  refine ⟨isData, query, asked, (leads _).2.mpr (by decide), (leads _).2.mpr (by decide), ?_⟩
  exact Bool.eq_false_of_not_eq_true fun agrees => absurd ((leads _).2.mp agrees) (by decide)

end Hub

end CashHerald
