import CashHerald.Address.Text
import CashHerald.Hub.Basic
import CashHerald.Json.Parser
import CashHerald.Session.Reaction

/-!
Control messages: a client asks in JSON to subscribe or to unsubscribe, and gets one reply. Main
statement: the name of an operation tells its action and its topic.
-/

namespace CashHerald.Hub

inductive Action where
  | subscribe
  | unsubscribe
  deriving DecidableEq, Repr

/-- An operation does something about a topic. -/
structure Operation where
  action : Action
  topic : Topic
  deriving DecidableEq, Repr

/-- The name of an operation. -/
def Operation.name (operation : Operation) : String :=
  match operation.action with
  | .subscribe => operation.topic.name
  | .unsubscribe => "rm_" ++ operation.topic.name

/-- The operations that clients may ask for. -/
def Operation.all : List Operation :=
  [⟨.subscribe, .block⟩, ⟨.unsubscribe, .block⟩,
    ⟨.subscribe, .transaction⟩, ⟨.unsubscribe, .transaction⟩,
    ⟨.subscribe, .address⟩, ⟨.unsubscribe, .address⟩,
    ⟨.subscribe, .data⟩, ⟨.unsubscribe, .data⟩]

/-- The operation with a name. -/
def Operation.ofName? (name : String) : Option Operation :=
  Operation.all.find? (·.name = name)

/-- The reason why a control message is refused. -/
inductive CommandError where
  | malformed (error : Json.ParseError)
  | notObject (typeName : String)
  | missingOperation
  | unknownOperation
  | missingAddress
  | address (error : AddressError)
  | missingLead
  | invalidHex
  | leadTooLong
  deriving DecidableEq, Repr

/-- The text of a refusal. -/
def CommandError.message : CommandError → String
  | .malformed error => "Unable to parse JSON request. " ++ error.message
  | .notObject typeName =>
    "Error while parsing JSON request. Expected Object, but encountered " ++ typeName
  | .missingOperation => "Error while parsing JSON request. Expected 'op' parameter as string."
  | .unknownOperation => "Error while parsing JSON request. Expected valid 'op' parameter."
  | .missingAddress => "Error while parsing JSON request. Expected 'address' parameter as string."
  | .address error => "Unable to decode cash address. " ++ error.message
  | .missingLead => "Error while parsing JSON request. Expected 'prefix' parameter as string."
  | .invalidHex =>
    "Error while parsing JSON request. Expected 'prefix' parameter to be valid hex."
  | .leadTooLong => "Error while parsing JSON request. " ++
      "Expected 'prefix' parameter to be less than 32 hex characters long."

/-- A command is an operation with the subscription that it adds or removes. -/
structure Command where
  operation : Operation
  subscription : Subscription
  deriving DecidableEq, Repr

namespace Command

/-- The lead written by a text in hexadecimal. -/
def leadOf (text : List Char) : Except CommandError DataLead :=
  if text.any fun character => (Hex.value? character).isNone then .error .invalidHex
  else if text.length > 2 * DataLead.sizeLimit then .error .leadTooLong
  else
    match Hex.decode? text with
    | none => .error .invalidHex
    | some octets =>
      match DataLead.ofOctets? octets with
      | none => .error .leadTooLong
      | some lead => .ok lead

/-- The subscription to a topic that the members of a request name. -/
def subscriptionOf (network : String) (topic : Topic) (members : List (String × Json.Value)) :
    Except CommandError Subscription :=
  match topic with
  | .block => .ok .block
  | .transaction => .ok .transaction
  | .address =>
    match Json.Value.textOf? "address" members with
    | none => .error .missingAddress
    | some text =>
      match Address.decode network text with
      | .error error => .error (.address error)
      | .ok address => .ok (.address address)
  | .data =>
    match Json.Value.textOf? "prefix" members with
    | none => .error .missingLead
    | some text => (leadOf text.toList).map .data

/-- The command of a request with some members. -/
def ofMembers (network : String) (members : List (String × Json.Value)) :
    Except CommandError Command :=
  match Json.Value.textOf? "op" members with
  | none => .error .missingOperation
  | some name =>
    match Operation.ofName? (Letters.lowerText name) with
    | none => .error .unknownOperation
    | some operation =>
      (subscriptionOf network operation.topic members).map (⟨operation, ·⟩)

/-- The command of a control message. -/
def ofText (network text : String) : Except CommandError Command :=
  match Json.parse (String.ofList (Blank.trim text.toList)) with
  | .error error => .error (.malformed error)
  | .ok (.object members) => ofMembers network members
  | .ok value => .error (.notObject value.typeName)

end Command

/-- A reply to a control message. -/
inductive Reply where
  | done (operation : Operation)
  | failed (operation : Operation)
  | refused (error : CommandError)
  deriving DecidableEq, Repr

namespace Reply

/-- The reply as JSON. -/
def value : Reply → Json.Value
  | .done operation => .object [("op", .text operation.name), ("result", .text "ok")]
  | .failed operation => .object [("op", .text operation.name), ("result", .text "failed")]
  | .refused error => .object [("op", .text "error"), ("error", .text error.message)]

def text (reply : Reply) : String :=
  Json.Writer.render reply.value

end Reply

/-- Carries out a command of a client. A subscription is always acknowledged. -/
def execute (hub : Hub) (client : Nat) (command : Command) : Hub × Reply :=
  match command.operation.action with
  | .subscribe => ((hub.subscribe client command.subscription).1, .done command.operation)
  | .unsubscribe =>
    match hub.unsubscribe client command.subscription with
    | (later, true) => (later, .done command.operation)
    | (later, false) => (later, .failed command.operation)

/-- Answers a control message of a client. -/
def answer (hub : Hub) (client : Nat) (text : String) : Hub × Reply :=
  match Command.ofText hub.network text with
  | .error error => (hub.count (.controlMessages "error") 1, .refused error)
  | .ok command =>
    (hub.count (.controlMessages command.operation.name) 1).execute client command

/-- The hub's reactions to the events of its clients. -/
def handler : Session.Handler Hub := fun hub client event =>
  match event with
  | .opened => .done ((hub.addClient client).count .connections 1)
  | .text content =>
    let (later, reply) := hub.answer client content
    .sendText reply.text later
  | .ping content => .pong content hub
  | .closed =>
    match hub.removeClient client with
    | (later, true) => .done (later.count .connections (-1))
    | (later, false) => .done later
  | .binary _ => .done hub
  | .pong _ => .done hub
  | .failed _ => .done hub

/-- The name of an operation tells its action and its topic. -/
theorem Operation.ofName?_name (operation : Operation) :
    Operation.ofName? operation.name = some operation := by
  obtain ⟨action, topic⟩ := operation
  cases action <;> cases topic <;> rfl

end CashHerald.Hub
