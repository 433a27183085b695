import GelfCourier.Datagram.Collector
import GelfCourier.Datagram.Sending

/-!
A datagram transport over a socket that takes everything in, and a collector that puts the messages
together again. One send or close runs at a time.
-/

set_option autoImplicit false

namespace GelfCourier.Simulation

inductive DatagramOp where
  | send (message : Message)
  | close

/-- What became of a send: its datagrams and the payloads put together, or a fault. -/
structure Delivery where
  datagrams : List Bytes
  payloads : List Bytes

inductive DatagramReply where
  | closed
  | sent (message : Message) (delivery : Delivery)
  /-- A send that failed, and how many datagrams it wrote. -/
  | failed (fault : TransportFault) (datagrams : Nat)

structure DatagramRun where
  transport : Datagram.Transport := {}
  collector : Datagram.Collector := {}

namespace DatagramRun

/-- Identifiers are drawn in turn. -/
def idOf (number : Nat) : Datagram.Id :=
  Vector.ofFn fun (i : Fin 8) => (number / Nat.pow 256 i.val).toUInt8

/-- Steps of one task until it is over. -/
def work (transport : Datagram.Transport) (number : Nat) : (turns : Nat) → Datagram.Transport
  | 0 => transport
  | turns + 1 =>
    let step? := match transport.phase? number with
      | some .asking => transport.step? (.enter number)
      | some (.writing _) => transport.step? (.wrote number .whole)
      | _ => none
    match step? with
    | none => transport
    | some next => work next number turns

/-- More steps than any task takes. -/
def workLimit : Nat := 2 * Datagram.maxChunks

def apply (run : DatagramRun) (op : DatagramOp) : DatagramRun × DatagramReply :=
  let number := run.transport.tasks.length
  match op with
  | .close =>
    let begun := (run.transport.step? (.close number)).getD run.transport
    ({ run with transport := work begun number workLimit }, .closed)
  | .send message =>
    let payload := Payload.forDatagram message
    let begun := (run.transport.step? (.send number (idOf number) payload)).getD run.transport
    let transport := work begun number workLimit
    let datagrams := (transport.log.drop run.transport.log.length).map (·.2)
    match transport.phase? number with
    | some (.finished (.ok ())) =>
      let (collector, payloads) := run.collector.receiveAll datagrams
      ({ transport, collector }, .sent message ⟨datagrams, payloads⟩)
    | some (.finished (.error fault)) =>
      ({ run with transport }, .failed fault datagrams.length)
    | _ => ({ run with transport }, .failed .closed datagrams.length)

def applyAll (run : DatagramRun) : List DatagramOp → List DatagramReply
  | [] => []
  | op :: ops =>
    let (run, reply) := run.apply op
    reply :: run.applyAll ops

end DatagramRun

end GelfCourier.Simulation
