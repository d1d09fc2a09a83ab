import CashHerald.Address.Basic
import CashHerald.Address.Checksum
import CashHerald.Address.Regroup
import CashHerald.Address.Text
import CashHerald.Digest.Md5
import CashHerald.Digest.Padding
import CashHerald.Digest.Sha1
import CashHerald.Digest.Sha256
import CashHerald.Hub.Announcement
import CashHerald.Hub.Basic
import CashHerald.Hub.Command
import CashHerald.Hub.Dispatch
import CashHerald.Hub.Pipeline
import CashHerald.Hub.Registry
import CashHerald.Hub.Relay
import CashHerald.Hub.Subscription
import CashHerald.Hub.Tally
import CashHerald.Json.Double
import CashHerald.Json.Fault
import CashHerald.Json.Number
import CashHerald.Json.Parser
import CashHerald.Json.Quoted
import CashHerald.Json.Shortest
import CashHerald.Json.Value
import CashHerald.Ledger.Block
import CashHerald.Ledger.CompactSize
import CashHerald.Ledger.Cursor
import CashHerald.Ledger.Script
import CashHerald.Ledger.Transaction
import CashHerald.Main
import CashHerald.Octets.Basic
import CashHerald.Octets.Hex
import CashHerald.Proofs.Address.BitBuffer
import CashHerald.Proofs.Address.Bursts
import CashHerald.Proofs.Address.Canonical
import CashHerald.Proofs.Address.Completion
import CashHerald.Proofs.Address.Locking
import CashHerald.Proofs.Address.Regrouping
import CashHerald.Proofs.Address.Remainder
import CashHerald.Proofs.Hub.Attendance
import CashHerald.Proofs.Hub.Confinement
import CashHerald.Proofs.Hub.Contention
import CashHerald.Proofs.Hub.Contents
import CashHerald.Proofs.Hub.Delivery
import CashHerald.Proofs.Hub.Feed
import CashHerald.Proofs.Hub.Gauges
import CashHerald.Proofs.Hub.Hearing
import CashHerald.Proofs.Hub.House
import CashHerald.Proofs.Hub.Isolation
import CashHerald.Proofs.Hub.Leads
import CashHerald.Proofs.Hub.Payments
import CashHerald.Proofs.Hub.Removal
import CashHerald.Proofs.Hub.Replies
import CashHerald.Proofs.Hub.Requests
import CashHerald.Proofs.Hub.Serving
import CashHerald.Proofs.Hub.Shifts
import CashHerald.Proofs.Hub.Shutdown
import CashHerald.Proofs.Hub.Synchrony
import CashHerald.Proofs.Json.RoundTrip
import CashHerald.Proofs.Ledger.BlockLayout
import CashHerald.Proofs.Ledger.Counted
import CashHerald.Proofs.Ledger.Format
import CashHerald.Proofs.Ledger.Offsets
import CashHerald.Proofs.Ledger.Pushes
import CashHerald.Proofs.Ledger.TransactionFormat
import CashHerald.Proofs.Ledger.Truncation
import CashHerald.Proofs.Session.Alone
import CashHerald.Proofs.Session.Callbacks
import CashHerald.Proofs.Session.Feeds
import CashHerald.Proofs.Session.Growth
import CashHerald.Proofs.Session.Handles
import CashHerald.Proofs.Session.Handover
import CashHerald.Proofs.Session.Handshake
import CashHerald.Proofs.Session.Interleaving
import CashHerald.Proofs.Session.Limits
import CashHerald.Proofs.Session.Losses
import CashHerald.Proofs.Session.Probes
import CashHerald.Proofs.Session.Reads
import CashHerald.Proofs.Session.Transmission
import CashHerald.Proofs.Session.Undisturbed
import CashHerald.Proofs.Session.Verdict
import CashHerald.Proofs.Text.Encoding
import CashHerald.Proofs.Text.Hexadecimal
import CashHerald.Proofs.Text.Lines
import CashHerald.Proofs.Upgrade.Answers
import CashHerald.Proofs.Upgrade.Grammar
import CashHerald.Proofs.Upgrade.Growing
import CashHerald.Proofs.Upgrade.KeyNumbers
import CashHerald.Proofs.Upgrade.Negotiation
import CashHerald.Proofs.Upgrade.Probing
import CashHerald.Proofs.Wire.Chunks
import CashHerald.Proofs.Wire.ClientFrame
import CashHerald.Proofs.Wire.Fragments
import CashHerald.Proofs.Wire.Memory
import CashHerald.Proofs.Wire.Parts
import CashHerald.Proofs.Wire.ServerFrame
import CashHerald.Proofs.Wire.Splitting
import CashHerald.Service.Health
import CashHerald.Service.NetAddress
import CashHerald.Service.Options
import CashHerald.Service.Report
import CashHerald.Session.Connection
import CashHerald.Session.Life
import CashHerald.Session.Reaction
import CashHerald.Session.Server
import CashHerald.Text.Base64
import CashHerald.Text.Blank
import CashHerald.Text.Letters
import CashHerald.Text.Numeral
import CashHerald.Text.Pieces
import CashHerald.Text.Utf8
import CashHerald.Upgrade.Challenge
import CashHerald.Upgrade.PolicyProbe
import CashHerald.Upgrade.Request
import CashHerald.Upgrade.Response
import CashHerald.Wire.Delimited
import CashHerald.Wire.Dialect
import CashHerald.Wire.Fault
import CashHerald.Wire.Frame
import CashHerald.Wire.Reassembly
