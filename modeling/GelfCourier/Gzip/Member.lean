import GelfCourier.Gzip.Checksum
import GelfCourier.Gzip.Deflate
import GelfCourier.IoFault

/-!
Gzip members. `pack` writes one with the plainest header; its stream is unpacked again before it is
used, and stored blocks stand in for a stream that would not give the content back. `unpack` reads the
first member of a text, with every optional part of its header.
-/

set_option autoImplicit false

namespace GelfCourier.Gzip

inductive Fault where
  | header
  | checksum
  | corrupt
  | incomplete
  | endOfInput
  deriving DecidableEq, Repr

def Fault.toIoFault : Fault → IoFault
  | .header => ⟨.invalidInput, "invalid gzip header"⟩
  | .checksum => ⟨.invalidInput, "corrupt gzip stream does not have a matching checksum"⟩
  | .corrupt => ⟨.invalidInput, "corrupt deflate stream"⟩
  | .incomplete => ⟨.unexpectedEof, "incomplete deflate stream"⟩
  | .endOfInput => ⟨.unexpectedEof, "unexpected end of file"⟩

def InflateFault.toFault : InflateFault → Fault
  | .corrupt => .corrupt
  | .incomplete => .incomplete

/-- The effort of packing, from 0 for none to 9. -/
abbrev Effort := Nat

def fast : Effort := 1

def best : Effort := 9

/-- The octet of the header that tells the effort. -/
def effortMark (effort : Effort) : UInt8 :=
  if 9 ≤ effort then 2 else if effort ≤ 1 then 4 else 0

def header (effort : Effort) : Bytes :=
  [0x1f, 0x8b, 8, 0, 0, 0, 0, 0, effortMark effort, 0xff]

/-- The checksum of the content and its length, both of 32 bits. -/
def trailer (content : Bytes) : Bytes :=
  Bytes.littleEndian 4 (crc32 content).toNat ++ Bytes.littleEndian 4 content.length

/-- A deflate stream that gives the data back. -/
def deflate (effort : Effort) (data : Bytes) : Bytes :=
  if effort = 0 then Deflate.storedBlocks data
  else
    let packed := Deflate.compressed data
    match inflate packed with
    | .ok (content, []) => if content = data then packed else Deflate.storedBlocks data
    | _ => Deflate.storedBlocks data

def pack (effort : Effort) (data : Bytes) : Bytes :=
  header effort ++ deflate effort data ++ trailer data

/-! Reading the header. Each part returns what follows it. -/

def skip (count : Nat) (s : Bytes) : Except Fault Bytes :=
  if s.length < count then .error .endOfInput else .ok (s.drop count)

/-- Everything up to a zero octet, and that octet. -/
def skipText (s : Bytes) : Except Fault Bytes :=
  match s.dropWhile (· ≠ 0) with
  | [] => .error .endOfInput
  | _ :: rest => .ok rest

/-- An extra field: its length in two octets, then its content. -/
def skipExtra : Bytes → Except Fault Bytes
  | low :: high :: rest => skip (low.toNat + 256 * high.toNat) rest
  | _ => .error .endOfInput

/-- Half of the checksum of the header before it. -/
def checkHeader (whole s : Bytes) : Except Fault Bytes :=
  match s with
  | low :: high :: rest =>
    let read := whole.take (whole.length - s.length)
    if (crc32 read).toNat % 65536 = low.toNat + 256 * high.toNat then .ok rest
    else .error .checksum
  | _ => .error .endOfInput

def readHeader (s : Bytes) : Except Fault Bytes :=
  match s with
  | a :: b :: method :: flags :: _ :: _ :: _ :: _ :: _ :: _ :: rest =>
    if a ≠ 0x1f ∨ b ≠ 0x8b ∨ method ≠ 8 ∨ flags &&& 0xe0 ≠ 0 then .error .header
    else do
      let rest ← if flags &&& 4 ≠ 0 then skipExtra rest else .ok rest
      let rest ← if flags &&& 8 ≠ 0 then skipText rest else .ok rest
      let rest ← if flags &&& 16 ≠ 0 then skipText rest else .ok rest
      if flags &&& 2 ≠ 0 then checkHeader s rest else .ok rest
  | _ => .error .endOfInput

/-- The content of the first member. What follows its trailer is ignored. -/
def unpack (s : Bytes) : Except Fault Bytes :=
  match readHeader s with
  | .error fault => .error fault
  | .ok rest =>
    match inflate rest with
    | .error fault => .error fault.toFault
    | .ok (content, rest) =>
      let last := rest.take 8
      if last.length < 8 then .error .endOfInput
      else if last = trailer content then .ok content
      else .error .checksum

end GelfCourier.Gzip
