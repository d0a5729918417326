import ScriptHost.Database.Transaction
import ScriptHost.Host.Run
import ScriptHost.Http.Wire
import ScriptHost.Proofs.Queue.Order
import ScriptHost.Socket.Loopback
import ScriptHost.Stream.Conversation
import ScriptHost.Stream.Duplex
import ScriptHost.Stream.Parties
import ScriptHost.Database.Store
import ScriptHost.Proofs.Database.Engine
import ScriptHost.Proofs.Database.Store
import ScriptHost.Proofs.Database.Reach
import ScriptHost.Proofs.Database.Atomicity
import ScriptHost.Proofs.Database.Exclusive
import ScriptHost.Proofs.Stream.Reading
import ScriptHost.Proofs.Stream.Writing
import ScriptHost.Proofs.WebSocket.Frame
import ScriptHost.Proofs.WebSocket.Read
import ScriptHost.Proofs.WebSocket.Reassembly
import ScriptHost.Proofs.WebSocket.RoundTrip
import ScriptHost.Proofs.WebSocket.Timeout
import ScriptHost.Proofs.LockTable.Exclusion
import ScriptHost.Proofs.Cache.Expiry
import ScriptHost.Proofs.Stream.Phase
import ScriptHost.Proofs.Stream.Response
import ScriptHost.Proofs.Stream.Framing
import ScriptHost.Proofs.Bus.Conservation
import ScriptHost.Proofs.Bus.Turns
import ScriptHost.Proofs.Bus.Order
import ScriptHost.Proofs.Capability.Sharing
import ScriptHost.Proofs.Capability.Slots
import ScriptHost.Proofs.Stream.HeadGrammar
import ScriptHost.Proofs.Stream.HeadReading
import ScriptHost.Capability.Callers
import ScriptHost.Proofs.Capability.Callers
import ScriptHost.Proofs.Json.Text
import ScriptHost.Proofs.Capability.Identity
import ScriptHost.Proofs.Capability.Registry
import ScriptHost.Proofs.Text.Split
import ScriptHost.Proofs.Stream.Body
import ScriptHost.Proofs.Route.Template
import ScriptHost.Proofs.Route.Expression
import ScriptHost.Proofs.Route.Capture
import ScriptHost.Proofs.Route.Order
import ScriptHost.Proofs.Route.Refusal
import ScriptHost.Proofs.Host.Run
import ScriptHost.Proofs.Host.Workers
import ScriptHost.Proofs.Host.Ending
import ScriptHost.Proofs.Stream.Time
import ScriptHost.Proofs.Host.Lifecycle
import ScriptHost.Proofs.Host.Refusal
import ScriptHost.Database.Lending
import ScriptHost.Proofs.Database.Lending
import ScriptHost.Proofs.Database.Handle
import ScriptHost.Proofs.Host.Agreement
import ScriptHost.Proofs.Stream.Moves
import ScriptHost.Proofs.Stream.Cancellation
import ScriptHost.Proofs.Socket.Reading
import ScriptHost.Proofs.Record
import ScriptHost.Proofs.Http.Headers
import ScriptHost.Proofs.WebSocket.Closing
import ScriptHost.Proofs.WebSocket.Payload
import ScriptHost.Proofs.WebSocket.Ending
import ScriptHost.Proofs.Monitor.Grounded
import ScriptHost.Proofs.Monitor.Demand
import ScriptHost.Proofs.Queue.Waiting
import ScriptHost.Proofs.LockTable.Waiting
import ScriptHost.Proofs.Database.Waiting
import ScriptHost.Proofs.Value.Shape
import ScriptHost.Proofs.Json.RoundTrip
import ScriptHost.Proofs.Value.Key
import ScriptHost.Proofs.Deadline
import ScriptHost.Proofs.Value.Equality
import ScriptHost.Proofs.Text.Utf8
import ScriptHost.Proofs.Database.Column
import ScriptHost.Proofs.Capability.Kinds
import ScriptHost.Proofs.Stream.Custody
import ScriptHost.Proofs.Stream.Duplex
import ScriptHost.Stream.Link
import ScriptHost.Proofs.Stream.Transfer
import ScriptHost.Proofs.Stream.Wiring
