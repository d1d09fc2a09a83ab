import CashHerald.Hub.Command
import CashHerald.Proofs.Text.Hexadecimal
import Mathlib

/-!
What a control message asks for, said of its text and its members alone, and why one is refused.
Main statement: every text asks for one thing or is refused for one reason, and never both.
-/

namespace CashHerald

namespace Json.Value

variable {name : String} {members : List (String × Json.Value)}

theorem get?_eq_none_iff : get? name members = none ↔ ∀ member ∈ members, member.1 ≠ name := by
  induction members with
  | nil => simp [get?]
  | cons member members inductionHypothesis =>
    obtain ⟨key, value⟩ := member
    rw [List.forall_mem_cons, ← inductionHypothesis, get?]
    cases get? name members <;> simp

/-- A name stands for what its last member holds. -/
theorem get?_eq_some_iff {value : Json.Value} :
    get? name members = some value ↔
      ∃ earlier later, members = earlier ++ (name, value) :: later ∧
        ∀ member ∈ later, member.1 ≠ name := by
  constructor
  · intro found
    induction members with
    | nil => cases found
    | cons member members inductionHypothesis =>
      obtain ⟨key, held⟩ := member
      rw [get?] at found
      rcases behind : get? name members with _ | other
      · simp only [behind, Option.ite_none_right_eq_some, Option.some.injEq] at found
        obtain ⟨rfl, rfl⟩ := found
        exact ⟨[], members, rfl, get?_eq_none_iff.mp behind⟩
      · simp only [behind] at found
        obtain ⟨earlier, later, rfl, unnamed⟩ := inductionHypothesis (behind.trans found)
        exact ⟨(key, held) :: earlier, later, rfl, unnamed⟩
  · rintro ⟨earlier, later, rfl, unnamed⟩
    induction earlier with
    | nil => simp only [List.nil_append, get?, get?_eq_none_iff.mpr unnamed, if_pos]
    | cons member earlier inductionHypothesis =>
      simp only [List.cons_append, get?, inductionHypothesis]

end Json.Value

namespace Hub

/-- The last member with a name holds a text. -/
def Gives (members : List (String × Json.Value)) (name text : String) : Prop :=
  ∃ earlier later, members = earlier ++ (name, .text text) :: later ∧
    ∀ member ∈ later, member.1 ≠ name

theorem textOf?_eq_some_iff {members : List (String × Json.Value)} {name text : String} :
    Json.Value.textOf? name members = some text ↔ Gives members name text := by
  rw [Gives, ← Json.Value.get?_eq_some_iff, Json.Value.textOf?]
  split
  · rename_i content found
    simp [found]
  · rename_i other
    refine iff_of_false nofun fun found => other text found

theorem textOf?_eq_none_iff {members : List (String × Json.Value)} {name : String} :
    Json.Value.textOf? name members = none ↔ ∀ text, ¬ Gives members name text := by
  rw [Option.eq_none_iff_forall_ne_some]
  exact forall_congr' fun text => not_congr textOf?_eq_some_iff

/-- The operations by their names. -/
inductive Names : String → Action → Topic → Prop
  | block : Names "block" .subscribe .block
  | noBlock : Names "rm_block" .unsubscribe .block
  | transaction : Names "transaction" .subscribe .transaction
  | noTransaction : Names "rm_transaction" .unsubscribe .transaction
  | address : Names "address" .subscribe .address
  | noAddress : Names "rm_address" .unsubscribe .address
  | data : Names "opreturn" .subscribe .data
  | noData : Names "rm_opreturn" .unsubscribe .data

/-- The members of a request describe a subscription to a topic. -/
inductive Describes (network : String) (members : List (String × Json.Value)) :
    Topic → Subscription → Prop
  | block : Describes network members .block .block
  | transaction : Describes network members .transaction .transaction
  | address {text : String} {address : Address} (given : Gives members "address" text)
    (decoded : Address.decode network text = .ok address) :
    Describes network members .address (.address address)
  | data {text : String} {lead : DataLead} (given : Gives members "prefix" text)
    (written : Letters.lowerText text = Hex.encode lead.octets) :
    Describes network members .data (.data lead)

/-- The members of a request describe no subscription to a topic, for a reason. -/
inductive Lacks (network : String) (members : List (String × Json.Value)) :
    Topic → CommandError → Prop
  | missingAddress (missing : ∀ text, ¬ Gives members "address" text) :
    Lacks network members .address .missingAddress
  | address {text : String} {error : AddressError} (given : Gives members "address" text)
    (undecoded : Address.decode network text = .error error) :
    Lacks network members .address (.address error)
  | missingLead (missing : ∀ text, ¬ Gives members "prefix" text) :
    Lacks network members .data .missingLead
  | foreign {text : String} {character : Char} (given : Gives members "prefix" text)
    (mem : character ∈ text.toList) (other : ¬ Hex.IsDigit character) :
    Lacks network members .data .invalidHex
  | halved {text : String} (given : Gives members "prefix" text)
    (few : text.toList.length ≤ 32) (odd : text.toList.length % 2 = 1) :
    Lacks network members .data .invalidHex
  | long {text : String} (given : Gives members "prefix" text)
    (digits : ∀ character ∈ text.toList, Hex.IsDigit character)
    (many : 32 < text.toList.length) : Lacks network members .data .leadTooLong

/-- What is read of a control message: its text without the blanks around it. -/
def parsed (text : String) : Except Json.ParseError Json.Value :=
  Json.parse (String.ofList (Blank.trim text.toList))

/-- A text asks for an operation by name, in any case of the letters, with a subscription. -/
def Requests (network text name : String) (action : Action) (subscription : Subscription) : Prop :=
  ∃ members written topic, parsed text = .ok (.object members) ∧ Gives members "op" written ∧
    Letters.lowerText written = name ∧ Names name action topic ∧
    Describes network members topic subscription

/-- A text asks for nothing, for a reason. -/
inductive Refused (network text : String) : CommandError → Prop
  | malformed {error : Json.ParseError} (unread : parsed text = .error error) :
    Refused network text (.malformed error)
  | notObject {value : Json.Value} (read : parsed text = .ok value)
    (other : ∀ members, value ≠ .object members) :
    Refused network text (.notObject value.typeName)
  | missingOperation {members : List (String × Json.Value)}
    (read : parsed text = .ok (.object members))
    (missing : ∀ written, ¬ Gives members "op" written) :
    Refused network text .missingOperation
  | unknownOperation {members : List (String × Json.Value)} {written : String}
    (read : parsed text = .ok (.object members)) (given : Gives members "op" written)
    (unknown : ∀ action topic, ¬ Names (Letters.lowerText written) action topic) :
    Refused network text .unknownOperation
  | undescribed {members : List (String × Json.Value)} {written : String} {action : Action}
    {topic : Topic} {error : CommandError} (read : parsed text = .ok (.object members))
    (given : Gives members "op" written) (names : Names (Letters.lowerText written) action topic)
    (lacks : Lacks network members topic error) : Refused network text error

theorem Names.name_eq {name : String} {action : Action} {topic : Topic}
    (names : Names name action topic) : Operation.name ⟨action, topic⟩ = name := by
  cases names <;> rfl

theorem ofName?_eq_some_iff {name : String} {action : Action} {topic : Topic} :
    Operation.ofName? name = some ⟨action, topic⟩ ↔ Names name action topic := by
  constructor
  · intro found
    have same : Operation.name ⟨action, topic⟩ = name := by
      unfold Operation.ofName? at found
      simpa using List.find?_some found
    subst same
    cases action <;> cases topic <;> constructor
  · intro names
    rw [← names.name_eq]
    exact Operation.ofName?_name _

theorem ofName?_eq_none_iff {name : String} :
    Operation.ofName? name = none ↔ ∀ action topic, ¬ Names name action topic := by
  rw [Option.eq_none_iff_forall_ne_some]
  constructor
  · intro unknown action topic names
    exact unknown _ (ofName?_eq_some_iff.mpr names)
  · intro unknown operation found
    exact unknown operation.action operation.topic (ofName?_eq_some_iff.mp found)

section Leads

variable {text : List Char} {lead : DataLead}

theorem any_isNone_iff :
    (text.any fun character => (Hex.value? character).isNone) = true ↔
      ∃ character ∈ text, ¬ Hex.IsDigit character := by
  simp only [List.any_eq_true, Option.isNone_iff_eq_none, Hex.value?_eq_none_iff]

theorem leadOf_of_foreign (foreign : ∃ character ∈ text, ¬ Hex.IsDigit character) :
    Command.leadOf text = .error .invalidHex := by
  rw [Command.leadOf, if_pos (any_isNone_iff.mpr foreign)]

/-- The lead of a text of digits alone. -/
theorem leadOf_of_digits (digits : ∀ character ∈ text, Hex.IsDigit character) :
    Command.leadOf text =
      if 32 < text.length then .error .leadTooLong
      else
        match Hex.decode? text with
        | none => .error .invalidHex
        | some octets =>
          match DataLead.ofOctets? octets with
          | none => .error .leadTooLong
          | some lead => .ok lead := by
  have none : ¬ (text.any fun character => (Hex.value? character).isNone) = true := by
    rw [any_isNone_iff]
    rintro ⟨character, mem, other⟩
    exact other (digits character mem)
  rw [Command.leadOf, if_neg none]
  rfl

/-- A lead is read from its text in letters of either case. -/
theorem leadOf_of_lower (written : Letters.lower text = (Hex.encode lead.octets).toList) :
    Command.leadOf text = .ok lead := by
  have read := Hex.decode?_eq_some_iff.mpr written
  have few : ¬ 32 < text.length := by
    rw [Hex.length_of_decode? read]
    have bound := lead.length_le
    omega
  rw [leadOf_of_digits fun _ => Hex.isDigit_of_decode? read, if_neg few, read]
  simp only [DataLead.ofOctets?, dif_pos lead.length_le]

theorem leadOf_of_odd (few : text.length ≤ 32) (odd : text.length % 2 = 1) :
    Command.leadOf text = .error .invalidHex := by
  by_cases foreign : ∃ character ∈ text, ¬ Hex.IsDigit character
  · exact leadOf_of_foreign foreign
  have unread : Hex.decode? text = none := by
    rw [Option.eq_none_iff_forall_ne_some]
    intro octets read
    have even := Hex.length_of_decode? read
    omega
  rw [leadOf_of_digits (by simpa using foreign), if_neg (Nat.not_lt.mpr few), unread]

/-- Every text writes a lead, or has a character that is no digit, too few of them or too many. -/
theorem lead_cases (text : List Char) :
    (∃ character ∈ text, ¬ Hex.IsDigit character) ∨
      text.length ≤ 32 ∧ text.length % 2 = 1 ∨
      (∀ character ∈ text, Hex.IsDigit character) ∧ 32 < text.length ∨
      ∃ lead : DataLead, Letters.lower text = (Hex.encode lead.octets).toList := by
  by_cases foreign : ∃ character ∈ text, ¬ Hex.IsDigit character
  · exact .inl foreign
  have digits : ∀ character ∈ text, Hex.IsDigit character := by simpa using foreign
  by_cases many : 32 < text.length
  · exact .inr (.inr (.inl ⟨digits, many⟩))
  by_cases odd : text.length % 2 = 1
  · exact .inr (.inl ⟨Nat.not_lt.mp many, odd⟩)
  obtain ⟨octets, read⟩ := Hex.exists_decode? digits (Nat.mod_two_ne_one.mp odd)
  have fits : octets.length ≤ 16 := by
    have length := Hex.length_of_decode? read
    omega
  exact .inr (.inr (.inr ⟨⟨octets, fits⟩, Hex.decode?_eq_some_iff.mp read⟩))

end Leads

section Subscriptions

variable {network : String} {members : List (String × Json.Value)} {topic : Topic}

theorem subscriptionOf_of_describes {subscription : Subscription}
    (describes : Describes network members topic subscription) :
    Command.subscriptionOf network topic members = .ok subscription := by
  cases describes with
  | block => rfl
  | transaction => rfl
  | address given decoded =>
    simp only [Command.subscriptionOf, textOf?_eq_some_iff.mpr given, decoded]
  | data given written =>
    have lowered := congrArg String.toList written
    rw [Letters.lowerText, String.toList_ofList] at lowered
    simp only [Command.subscriptionOf, textOf?_eq_some_iff.mpr given, leadOf_of_lower lowered]
    rfl

theorem subscriptionOf_of_lacks {error : CommandError}
    (lacks : Lacks network members topic error) :
    Command.subscriptionOf network topic members = .error error := by
  cases lacks with
  | missingAddress missing =>
    simp only [Command.subscriptionOf, textOf?_eq_none_iff.mpr missing]
  | address given undecoded =>
    simp only [Command.subscriptionOf, textOf?_eq_some_iff.mpr given, undecoded]
  | missingLead missing => simp only [Command.subscriptionOf, textOf?_eq_none_iff.mpr missing]
  | foreign given mem other =>
    simp only [Command.subscriptionOf, textOf?_eq_some_iff.mpr given,
      leadOf_of_foreign ⟨_, mem, other⟩]
    rfl
  | halved given few odd =>
    simp only [Command.subscriptionOf, textOf?_eq_some_iff.mpr given, leadOf_of_odd few odd]
    rfl
  | long given digits many =>
    simp only [Command.subscriptionOf, textOf?_eq_some_iff.mpr given, leadOf_of_digits digits,
      if_pos many]
    rfl

/-- The members of a request describe a subscription to a topic, or a reason why they do not. -/
theorem describes_or_lacks (network : String) (members : List (String × Json.Value))
    (topic : Topic) :
    (∃ subscription, Describes network members topic subscription) ∨
      ∃ error, Lacks network members topic error := by
  cases topic with
  | block => exact .inl ⟨_, .block⟩
  | transaction => exact .inl ⟨_, .transaction⟩
  | address =>
    by_cases given : ∃ text, Gives members "address" text
    · obtain ⟨text, given⟩ := given
      rcases decoded : Address.decode network text with error | address
      · exact .inr ⟨_, .address given decoded⟩
      · exact .inl ⟨_, .address given decoded⟩
    · exact .inr ⟨_, .missingAddress (not_exists.mp given)⟩
  | data =>
    by_cases given : ∃ text, Gives members "prefix" text
    · obtain ⟨text, given⟩ := given
      rcases lead_cases text.toList with
        ⟨character, mem, other⟩ | ⟨few, odd⟩ | ⟨digits, many⟩ | ⟨lead, written⟩
      · exact .inr ⟨_, .foreign given mem other⟩
      · exact .inr ⟨_, .halved given few odd⟩
      · exact .inr ⟨_, .long given digits many⟩
      · refine .inl ⟨.data lead, .data given ?_⟩
        rw [Letters.lowerText, written, String.ofList_toList]
    · exact .inr ⟨_, .missingLead (not_exists.mp given)⟩

end Subscriptions

section Texts

variable {network text : String}

theorem ofText_of_object {members : List (String × Json.Value)}
    (read : parsed text = .ok (.object members)) :
    Command.ofText network text = Command.ofMembers network members := by
  rw [parsed] at read
  simp only [Command.ofText, read]

theorem ofText_of_requests {name : String} {action : Action} {subscription : Subscription}
    (asked : Requests network text name action subscription) :
    ∃ topic, Command.ofText network text = .ok ⟨⟨action, topic⟩, subscription⟩ ∧
      Operation.name ⟨action, topic⟩ = name := by
  obtain ⟨members, written, topic, read, given, rfl, names, describes⟩ := asked
  refine ⟨topic, ?_, names.name_eq⟩
  rw [ofText_of_object read]
  simp only [Command.ofMembers, textOf?_eq_some_iff.mpr given, ofName?_eq_some_iff.mpr names,
    subscriptionOf_of_describes describes]
  rfl

theorem ofText_of_refused {error : CommandError} (refused : Refused network text error) :
    Command.ofText network text = .error error := by
  cases refused with
  | malformed unread =>
    rw [parsed] at unread
    simp only [Command.ofText, unread]
  | notObject read other =>
    rw [parsed] at read
    simp only [Command.ofText, read]
  | missingOperation read missing =>
    rw [ofText_of_object read]
    simp only [Command.ofMembers, textOf?_eq_none_iff.mpr missing]
  | unknownOperation read given unknown =>
    rw [ofText_of_object read]
    simp only [Command.ofMembers, textOf?_eq_some_iff.mpr given, ofName?_eq_none_iff.mpr unknown]
  | undescribed read given names lacks =>
    rw [ofText_of_object read]
    simp only [Command.ofMembers, textOf?_eq_some_iff.mpr given, ofName?_eq_some_iff.mpr names,
      subscriptionOf_of_lacks lacks]
    rfl

/-- Every text asks for something or is refused. -/
theorem requests_or_refused (network text : String) :
    (∃ name action subscription, Requests network text name action subscription) ∨
      ∃ error, Refused network text error := by
  rcases read : parsed text with error | value
  · exact .inr ⟨_, .malformed read⟩
  by_cases object : ∃ members, value = .object members
  · obtain ⟨members, rfl⟩ := object
    by_cases given : ∃ written, Gives members "op" written
    · obtain ⟨written, given⟩ := given
      by_cases known : ∃ action topic, Names (Letters.lowerText written) action topic
      · obtain ⟨action, topic, names⟩ := known
        rcases describes_or_lacks network members topic with
          ⟨subscription, describes⟩ | ⟨error, lacks⟩
        · exact .inl ⟨_, _, _, members, written, topic, read, given, rfl, names, describes⟩
        · exact .inr ⟨_, .undescribed read given names lacks⟩
      · refine .inr ⟨_, .unknownOperation read given fun action topic names => ?_⟩
        exact known ⟨action, topic, names⟩
    · exact .inr ⟨_, .missingOperation read (not_exists.mp given)⟩
  · exact .inr ⟨_, .notObject read (not_exists.mp object)⟩

/-- A text that asks for something is not refused. -/
theorem Requests.not_refused {name : String} {action : Action} {subscription : Subscription}
    (asked : Requests network text name action subscription) (error : CommandError) :
    ¬ Refused network text error := by
  intro refused
  obtain ⟨topic, read, -⟩ := ofText_of_requests asked
  cases read.symm.trans (ofText_of_refused refused)

/-- A text asks for one thing. -/
theorem Requests.unique {name otherName : String} {action otherAction : Action}
    {subscription otherSubscription : Subscription}
    (asked : Requests network text name action subscription)
    (other : Requests network text otherName otherAction otherSubscription) :
    name = otherName ∧ action = otherAction ∧ subscription = otherSubscription := by
  obtain ⟨topic, read, rfl⟩ := ofText_of_requests asked
  obtain ⟨otherTopic, otherRead, rfl⟩ := ofText_of_requests other
  cases read.symm.trans otherRead
  exact ⟨rfl, rfl, rfl⟩

theorem Refused.unique {error other : CommandError} (refused : Refused network text error)
    (otherwise : Refused network text other) : error = other := by
  cases (ofText_of_refused refused).symm.trans (ofText_of_refused otherwise)
  rfl

end Texts

end Hub

end CashHerald
