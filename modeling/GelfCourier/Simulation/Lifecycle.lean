import GelfCourier.Settings.Endpoint
import GelfCourier.Simulation.BrokerRun
import GelfCourier.Simulation.DatagramRun
import GelfCourier.Simulation.StreamRun

/-!
Opening a transport, and what it answers when it is closed, used, and closed again. A datagram
transport opens whenever its address is the place of one machine; the others need somebody who listens
there.
-/

set_option autoImplicit false

namespace GelfCourier.Simulation.Lifecycle

def opens (destination : Destination) (listening : Bool) : Except TransportFault Unit :=
  match destination, listening with
  | _, true => .ok ()
  | .datagram address, false =>
    match Endpoint.resolve address with
    | .error fault => .error (.io fault)
    | .ok endpoint =>
      if endpoint.isBroadcast then
        .error (.io ⟨.permissionDenied, "Permission denied (os error 13)"⟩)
      else .ok ()
  | .stream address _, false =>
    match Endpoint.resolve address with
    | .error fault => .error (.io fault)
    | .ok endpoint =>
      if endpoint.isBroadcast then
        .error (.io ⟨.networkUnreachable, "Network is unreachable (os error 101)"⟩)
      else .error (.io StreamRun.refusal)
  | .durable _, false => .error .broker

def datagramResult : DatagramReply → Except TransportFault Unit
  | .failed fault _ => .error fault
  | _ => .ok ()

def streamResult : StreamReply → Except TransportFault Unit
  | .result result => result
  | _ => .ok ()

def brokerResult : BrokerReply → Except TransportFault Unit
  | .result result => result
  | _ => .ok ()

/-- The results of a close, a send and another close. -/
def closeSendClose (destination : Destination) (message : Message) :
    List (Except TransportFault Unit) :=
  match destination with
  | .datagram _ =>
    (DatagramRun.applyAll {} [.close, .send message, .close]).map datagramResult
  | .stream address policy =>
    ((StreamRun.start address policy).applyAll [.close, .send message, .close]).2.map fun entry =>
      streamResult entry.1
  | .durable settings =>
    (BrokerRun.applyAll { settings } [.connect, .close, .send message, .close]).2.tail.map
      fun view => brokerResult view.reply

/-- What a consumer is told by a transport that cannot be read. -/
def consumeFault? (destination : Destination) : Option TransportFault :=
  if destination.isReadable then none else some (.unsupported destination.transportName)

end GelfCourier.Simulation.Lifecycle
