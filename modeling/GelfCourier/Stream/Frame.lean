import GelfCourier.Message.Basic

/-!
Messages on a byte stream: each is its written form and one zero octet. No written form holds a zero
octet, so the stream splits at the zeros in one way only.
-/

set_option autoImplicit false

namespace GelfCourier.Stream

def terminator : UInt8 := 0

def frame (message : Message) : Bytes :=
  message.toBytes ++ [terminator]

/-- The pieces that zero octets end, and what follows the last of them. `read` holds the octets of the
current piece so far, the last one first. -/
def splitFrom (read : Bytes) : Bytes → List Bytes × Bytes
  | [] => ([], read.reverse)
  | b :: rest =>
    if b = terminator then
      let (pieces, last) := splitFrom [] rest
      (read.reverse :: pieces, last)
    else splitFrom (b :: read) rest

/-- The complete pieces of a stream, and the octets of an incomplete one. -/
def split (stream : Bytes) : List Bytes × Bytes :=
  splitFrom [] stream

end GelfCourier.Stream
