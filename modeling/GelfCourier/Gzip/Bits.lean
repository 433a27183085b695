import GelfCourier.Text.Bytes

/-!
Bits packed into octets, the least significant bit of each octet first: a source to read them from
and a sink to write them to.
-/

set_option autoImplicit false

namespace GelfCourier.Gzip

structure BitSource where
  /-- Bits of the octet begun that are still to come. -/
  pending : List Bool
  rest : Bytes

namespace BitSource

def ofBytes (bytes : Bytes) : BitSource := ⟨[], bytes⟩

def bitsOf (b : UInt8) : List Bool :=
  (List.range 8).map b.toNat.testBit

def next? (source : BitSource) : Option (Bool × BitSource) :=
  match source.pending with
  | bit :: pending => some (bit, ⟨pending, source.rest⟩)
  | [] =>
    match source.rest with
    | [] => none
    | b :: rest => some (b.toNat.testBit 0, ⟨(bitsOf b).tail, rest⟩)

/-- A number of the given width, its least significant bit first. -/
def take? : (width : Nat) → BitSource → Option (Nat × BitSource)
  | 0, source => some (0, source)
  | width + 1, source => do
    let (bit, source) ← source.next?
    let (high, source) ← take? width source
    return (bit.toNat + 2 * high, source)

/-- Skips what is left of the octet begun. -/
def align (source : BitSource) : BitSource := ⟨[], source.rest⟩

end BitSource

structure BitSink where
  bytes : Array UInt8 := #[]
  /-- The bits written after the last whole octet, as a number. -/
  pending : Nat := 0
  width : Nat := 0

namespace BitSink

/-- Moves whole octets out of the pending bits. -/
def settle (sink : BitSink) : BitSink :=
  if 8 ≤ sink.width then
    settle ⟨sink.bytes.push sink.pending.toUInt8, sink.pending / 256, sink.width - 8⟩
  else sink
termination_by sink.width

def put (sink : BitSink) (width value : Nat) : BitSink :=
  settle ⟨sink.bytes, sink.pending + value * Nat.pow 2 sink.width, sink.width + width⟩

/-- Fills the last octet with zero bits. -/
def finish (sink : BitSink) : Array UInt8 :=
  if sink.width = 0 then sink.bytes else sink.bytes.push sink.pending.toUInt8

end BitSink

end GelfCourier.Gzip
