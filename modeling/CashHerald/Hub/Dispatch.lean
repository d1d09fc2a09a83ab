import CashHerald.Hub.Announcement
import CashHerald.Hub.Basic
import CashHerald.Session.Connection

/-!
Blocks and transactions sent to the clients that subscribed to them. Each output finds its own
subscribers, so a client may get an announcement once for every output it asked for. A client that
cannot be sent to is told to close.
-/

namespace CashHerald.Hub

/-- The query that finds the subscribers of an output. -/
def outputQuery? (network : String) (output : Ledger.Output) : Option Subscription :=
  match output.address? network with
  | some address => some (.address address)
  | none =>
    (output.embeddedData? DataLead.sizeLimit).map fun data => .data (DataLead.truncated data)

/-- The subscribers of a block. -/
def blockTargets (hub : Hub) : List Nat :=
  hub.registry.matching .block

/-- The subscribers of a transaction: those of its outputs in order, then those of all
transactions. -/
def transactionTargets (hub : Hub) (transaction : Ledger.Transaction) : List Nat :=
  (transaction.outputs.flatMap fun output =>
    match outputQuery? hub.network output with
    | none => []
    | some query => hub.registry.matching query) ++
  hub.registry.matching .transaction

/-- Sends a text to a client; if that fails, the failure is counted and the client's connection
closed. -/
def sendTo (event : FeedEvent) (text : String) (hub : Hub)
    (connections : List Session.Connection) (client : Nat) : Hub × List Session.Connection :=
  match connections[client]? with
  | none => (hub, connections)
  | some connection =>
    match connection.sendText text with
    | (later, .ok _) => (hub.count (.broadcasts event) 1, connections.set client later)
    | (later, .error _) =>
      (hub.count (.broadcastFailures event) 1,
        connections.set client (later.close Wire.CloseCode.internalError))

/-- Sends a text to every target in turn. -/
def broadcast (event : FeedEvent) (text : String) (hub : Hub)
    (connections : List Session.Connection) (targets : List Nat) :
    Hub × List Session.Connection :=
  targets.foldl (fun (later, changed) client => later.sendTo event text changed client)
    (hub, connections)

/-- Announces a block to its subscribers. -/
def announceBlock (hub : Hub) (connections : List Session.Connection) (block : Ledger.Block) :
    Hub × List Session.Connection :=
  hub.broadcast .block (Json.Writer.render (Announcement.ofBlock block)) connections
    hub.blockTargets

/-- Announces a transaction to its subscribers. -/
def announceTransaction (hub : Hub) (connections : List Session.Connection)
    (transaction : Ledger.Transaction) : Hub × List Session.Connection :=
  hub.broadcast .transaction
    (Json.Writer.render (Announcement.ofTransaction hub.network transaction)) connections
    (hub.transactionTargets transaction)

end CashHerald.Hub
