import GelfCourier.Gzip.Member
import GelfCourier.Message.Reading

/-!
Messages packed for a datagram, where speed counts, and for the broker's list, where size does.
-/

set_option autoImplicit false

namespace GelfCourier

/-- Why a payload is not a message: it cannot be unpacked, or what is in it has the wrong layout. -/
inductive CodecFault where
  | layout (fault : LayoutFault)
  | compression (fault : IoFault)
  deriving DecidableEq, Repr

def CodecFault.message : CodecFault → String
  | .layout fault => fault.message
  | .compression fault => "gzip stream error: " ++ fault.text

namespace Payload

def forDatagram (message : Message) : Bytes :=
  Gzip.pack Gzip.fast message.toBytes

def forQueue (message : Message) : Bytes :=
  Gzip.pack Gzip.best message.toBytes

def read (payload : Bytes) : Except CodecFault Message :=
  match Gzip.unpack payload with
  | .error fault => .error (.compression fault.toIoFault)
  | .ok content =>
    match Message.read content with
    | .error fault => .error (.layout fault)
    | .ok message => .ok message

end Payload

end GelfCourier
