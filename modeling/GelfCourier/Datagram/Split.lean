import GelfCourier.Text.Bytes

/-!
Cutting a payload into datagrams. A payload of at most 1420 octets is one datagram as it is. A larger
one becomes chunks of up to 1408 octets behind a header of twelve: two magic octets, the identifier
that all its chunks share, the chunk's index and the number of chunks. More than 255 chunks do not fit
the header and are refused.
-/

set_option autoImplicit false

namespace GelfCourier.Datagram

def maxSize : Nat := 1420

def headerSize : Nat := 12

/-- The octets of payload in one chunk. -/
def chunkSize : Nat := maxSize - headerSize

def maxChunks : Nat := 255

def magic : Bytes := [0x1e, 0x0f]

abbrev Id := Vector UInt8 8

/-- How many datagrams a payload of the given length takes. -/
def count (length : Nat) : Nat :=
  if length ≤ maxSize then 1 else (length + chunkSize - 1) / chunkSize

/-- Pieces of the given size, which is not zero, until nothing is left. -/
def pieces (size : Nat) : Bytes → List Bytes
  | [] => []
  | octet :: rest => (octet :: rest.take (size - 1)) :: pieces size (rest.drop (size - 1))
termination_by data => data.length
decreasing_by
  rw [List.length_drop, List.length_cons]
  omega

def header (id : Id) (index total : Nat) : Bytes :=
  magic ++ id.toList ++ [index.toUInt8, total.toUInt8]

def chunks (id : Id) (total : Nat) (payload : Bytes) : List Bytes :=
  (pieces chunkSize payload).mapIdx fun index piece => header id index total ++ piece

/-- The datagrams of a payload, or the number of chunks that would be needed. -/
def split (id : Id) (payload : Bytes) : Except Nat (List Bytes) :=
  let total := count payload.length
  if maxChunks < total then .error total
  else if total = 1 then .ok [payload]
  else .ok (chunks id total payload)

end GelfCourier.Datagram
