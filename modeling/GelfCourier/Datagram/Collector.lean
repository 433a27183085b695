import GelfCourier.Datagram.Split

/-!
The receiving end: datagrams without the magic octets are payloads of their own, and chunks are kept
under their identifier and index until as many are there as their header announces.
-/

set_option autoImplicit false

namespace GelfCourier.Datagram

structure Chunk where
  id : Bytes
  index : Nat
  total : Nat
  content : Bytes
  deriving DecidableEq, Repr

/-- The chunk that a datagram is, if it begins with the magic octets and a whole header. -/
def Chunk.ofDatagram? (datagram : Bytes) : Option Chunk :=
  if datagram.take 2 = magic ∧ headerSize ≤ datagram.length then
    some {
      id := (datagram.drop 2).take 8
      index := (datagram.getD 10 0).toNat
      total := (datagram.getD 11 0).toNat
      content := datagram.drop headerSize }
  else none

structure Collector where
  /-- Chunks of messages that are not complete, no two of one identifier and index. -/
  held : List Chunk := []

namespace Collector

/-- Keeps a chunk in place of one with the same identifier and index. -/
def store (held : List Chunk) (chunk : Chunk) : List Chunk :=
  held.filter (fun other => ¬ (other.id = chunk.id ∧ other.index = chunk.index)) ++ [chunk]

/-- The contents in the order of their indices. -/
def assemble (chunks : List Chunk) : Bytes :=
  (chunks.mergeSort fun left right => left.index ≤ right.index).flatMap (·.content)

/-- Takes in one chunk; a payload comes out when it completes one. -/
def accept (collector : Collector) (chunk : Chunk) : Collector × Option Bytes :=
  let held := store collector.held chunk
  let present := held.filter fun other => other.id = chunk.id
  if chunk.total ≤ present.length then
    (⟨held.filter fun other => other.id ≠ chunk.id⟩, some (assemble present))
  else (⟨held⟩, none)

/-- Takes in one datagram. -/
def receive (collector : Collector) (datagram : Bytes) : Collector × Option Bytes :=
  match Chunk.ofDatagram? datagram with
  | none => (collector, some datagram)
  | some chunk => collector.accept chunk

/-- Takes in datagrams one after another and lists the payloads that come out. -/
def receiveAll (collector : Collector) : List Bytes → Collector × List Bytes
  | [] => (collector, [])
  | datagram :: rest =>
    let (collector, payload) := collector.receive datagram
    let (collector, payloads) := receiveAll collector rest
    (collector, payload.toList ++ payloads)

end Collector

end GelfCourier.Datagram
