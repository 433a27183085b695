import GelfCourier.Noop
import GelfCourier.Number.Numeral
import GelfCourier.Simulation.Lifecycle
import GelfCourier.Simulation.ObserverRun
import GelfCourier.Simulation.PoolRun
import GelfCourier.Simulation.QueueRun
import GelfCourier.Proofs.Message.Encoding
import GelfCourier.Proofs.Message.Agreement
import GelfCourier.Proofs.Number.Nearest
import GelfCourier.Proofs.Stream.Retry
import GelfCourier.Proofs.Stream.Framing
import GelfCourier.Proofs.Concurrent.PoolAccounts
import GelfCourier.Proofs.Dispatch.LateRecords
import GelfCourier.Proofs.Dispatch.Overlap
import GelfCourier.Proofs.Datagram.Reassembly
import GelfCourier.Proofs.Datagram.Sizes
import GelfCourier.Proofs.Datagram.Writes
import GelfCourier.Proofs.Broker.Retries
import GelfCourier.Proofs.Broker.Sifting
import GelfCourier.Proofs.Number.Truncation
import GelfCourier.Proofs.Message.Decoding
import GelfCourier.Proofs.Message.Visits
import GelfCourier.Proofs.Dispatch.Draining
import GelfCourier.Proofs.Hook.Sessions
import GelfCourier.Proofs.Hook.Refinement
import GelfCourier.Proofs.Record.Sources
import GelfCourier.Proofs.Record.TextSplit
import GelfCourier.Proofs.Json.Nesting
import GelfCourier.Proofs.Message.Relay
import GelfCourier.Proofs.Event.Accounts
import GelfCourier.Proofs.Concurrent.Relabelling
import GelfCourier.Proofs.Concurrent.PoolObjects
import GelfCourier.Proofs.Event.Gathering
import GelfCourier.Proofs.Event.TextField
import GelfCourier.Proofs.Settings.BrokerUrl
import GelfCourier.Proofs.Concurrent.Wakeups
