import GelfCourier.Gzip.PrefixCode

/-!
Unpacking a deflate stream: blocks of stored octets, or of literals and copies under a fixed or a
given pair of prefix codes. The output is preceded by a window of zeros, so a copy from before its
beginning reads zeros.
-/

set_option autoImplicit false

namespace GelfCourier.Gzip

inductive InflateFault where
  | corrupt
  | incomplete
  deriving DecidableEq, Repr

abbrev Inflating (α : Type) := Except InflateFault α

namespace Inflate

/-- The codes of a block: one for literals, lengths and the end, one for distances. -/
structure Codes where
  literals : PrefixCode
  distances : PrefixCode

def bits (width : Nat) (source : BitSource) : Inflating (Nat × BitSource) :=
  match source.take? width with
  | some result => .ok result
  | none => .error .incomplete

def symbol (code : PrefixCode) (source : BitSource) : Inflating (Nat × BitSource) :=
  match code.decode source with
  | .symbol value source => .ok (value, source)
  | .noWord => .error .corrupt
  | .exhausted => .error .incomplete

/-- The least length and the number of extra bits for each length symbol from 257. -/
def lengthTable : Array (Nat × Nat) := #[
  (3, 0), (4, 0), (5, 0), (6, 0), (7, 0), (8, 0), (9, 0), (10, 0), (11, 1), (13, 1), (15, 1),
  (17, 1), (19, 2), (23, 2), (27, 2), (31, 2), (35, 3), (43, 3), (51, 3), (59, 3), (67, 4),
  (83, 4), (99, 4), (115, 4), (131, 5), (163, 5), (195, 5), (227, 5), (258, 0)]

/-- The least distance and the number of extra bits for each distance symbol. -/
def distanceTable : Array (Nat × Nat) := #[
  (1, 0), (2, 0), (3, 0), (4, 0), (5, 1), (7, 1), (9, 2), (13, 2), (17, 3), (25, 3), (33, 4),
  (49, 4), (65, 5), (97, 5), (129, 6), (193, 6), (257, 7), (385, 7), (513, 8), (769, 8),
  (1025, 9), (1537, 9), (2049, 10), (3073, 10), (4097, 11), (6145, 11), (8193, 12), (12289, 12),
  (16385, 13), (24577, 13)]

def tableValue (table : Array (Nat × Nat)) (index : Nat) (source : BitSource) :
    Inflating (Nat × BitSource) :=
  match table[index]? with
  | none => .error .corrupt
  | some (base, extra) =>
    match bits extra source with
    | .error fault => .error fault
    | .ok (more, source) => .ok (base + more, source)

/-- Repeats what was written the given distance ago. -/
def copy (distance : Nat) : (length : Nat) → Array UInt8 → Array UInt8
  | 0, output => output
  | length + 1, output =>
    let b := if distance ≤ output.size then output.getD (output.size - distance) 0 else 0
    copy distance length (output.push b)

/-- The next literal or copy of a block, and whether its end symbol was there instead. -/
def turn (codes : Codes) (output : Array UInt8) (source : BitSource) :
    Inflating (Bool × Array UInt8 × BitSource) :=
  match symbol codes.literals source with
  | .error fault => .error fault
  | .ok (value, source) =>
    if value < 256 then .ok (false, output.push value.toUInt8, source)
    else if value = 256 then .ok (true, output, source)
    else
      match tableValue lengthTable (value - 257) source with
      | .error fault => .error fault
      | .ok (length, source) =>
        match symbol codes.distances source with
        | .error fault => .error fault
        | .ok (index, source) =>
          match tableValue distanceTable index source with
          | .error fault => .error fault
          | .ok (distance, source) => .ok (false, copy distance length output, source)

/-- The literals and copies of a block up to its end symbol. Every turn takes at least one bit. -/
def symbols (codes : Codes) :
    (turns : Nat) → Array UInt8 → BitSource → Inflating (Array UInt8 × BitSource)
  | 0, _, _ => .error .incomplete
  | turns + 1, output, source =>
    match turn codes output source with
    | .error fault => .error fault
    | .ok (true, output, source) => .ok (output, source)
    | .ok (false, output, source) => symbols codes turns output source

def fixedCodes : Codes where
  literals := .ofLengths
    (List.replicate 144 8 ++ List.replicate 112 9 ++ List.replicate 24 7 ++ List.replicate 8 8)
  distances := .ofLengths (List.replicate 32 5)

/-- The order in which the lengths of the code for code lengths are given. -/
def lengthOrder : List Nat :=
  [16, 17, 18, 0, 8, 7, 9, 6, 10, 5, 11, 4, 12, 3, 13, 2, 14, 1, 15]

def widths (width : Nat) : (count : Nat) → BitSource → Inflating (List Nat × BitSource)
  | 0, source => .ok ([], source)
  | count + 1, source => do
    let (value, source) ← bits width source
    let (values, source) ← widths width count source
    return (value :: values, source)

/-- Code lengths given by a code of their own; three symbols repeat. `read` holds the lengths read so
far, the last one first. -/
def codeLengths (code : PrefixCode) (total : Nat) :
    (turns : Nat) → (read : List Nat) → BitSource → Inflating (List Nat × BitSource)
  | 0, _, _ => .error .incomplete
  | turns + 1, read, source =>
    if total < read.length then .error .corrupt
    else if read.length = total then .ok (read.reverse, source)
    else
      match symbol code source with
      | .error fault => .error fault
      | .ok (value, source) =>
        if value < 16 then codeLengths code total turns (value :: read) source
        else if value = 16 then
          match read with
          | [] => .error .corrupt
          | last :: _ =>
            match bits 2 source with
            | .error fault => .error fault
            | .ok (more, source) =>
              codeLengths code total turns (List.replicate (3 + more) last ++ read) source
        else
          let (least, width) := if value = 17 then (3, 3) else (11, 7)
          match bits width source with
          | .error fault => .error fault
          | .ok (more, source) =>
            codeLengths code total turns (List.replicate (least + more) 0 ++ read) source

/-- A code has to be complete, unless it has no word at all or one word of one bit. -/
def checkedCode (lengths : List Nat) : Inflating PrefixCode :=
  let used := lengths.filter (· ≠ 0)
  if PrefixCode.isComplete lengths ∨ used = [] ∨ used = [1] then .ok (.ofLengths lengths)
  else .error .corrupt

def givenCodes (source : BitSource) : Inflating (Codes × BitSource) := do
  let (literalCount, source) ← bits 5 source
  let (distanceCount, source) ← bits 5 source
  let (orderCount, source) ← bits 4 source
  if 29 < literalCount ∨ 29 < distanceCount then throw .corrupt
  let (given, source) ← widths 3 (orderCount + 4) source
  let lengths := (List.range 19).map fun symbol =>
    ((lengthOrder.zip given).lookup symbol).getD 0
  if !PrefixCode.isComplete lengths then throw .corrupt
  let total := literalCount + 257 + (distanceCount + 1)
  let (all, source) ← codeLengths (.ofLengths lengths) total (total + 1) [] source
  let distances ← checkedCode (all.drop (literalCount + 257))
  let literals ← checkedCode (all.take (literalCount + 257))
  return (⟨literals, distances⟩, source)

/-- A number of two octets, the low one first. -/
def twoOctets (bytes : Bytes) : Inflating (Nat × Bytes) :=
  match bytes with
  | low :: high :: rest => .ok (low.toNat + 256 * high.toNat, rest)
  | _ => .error .incomplete

/-- A stored block: its length, the complement of its length, and the octets themselves. -/
def stored (output : Array UInt8) (bytes : Bytes) : Inflating (Array UInt8 × BitSource) :=
  match twoOctets bytes with
  | .error fault => .error fault
  | .ok (length, bytes) =>
    match twoOctets bytes with
    | .error fault => .error fault
    | .ok (complement, bytes) =>
      if length + complement ≠ 65535 then .error .corrupt
      else
        let content := bytes.take length
        if content.length < length then .error .incomplete
        else .ok (output ++ content.toArray, .ofBytes (bytes.drop length))

/-- One block, and whether it is the last. -/
def block (turns : Nat) (output : Array UInt8) (source : BitSource) :
    Inflating (Bool × Array UInt8 × BitSource) := do
  let (last, source) ← bits 1 source
  let (kind, source) ← bits 2 source
  let (output, source) ←
    if kind = 0 then stored output source.align.rest
    else if kind = 1 then symbols fixedCodes turns output source
    else if kind = 2 then do
      let (codes, source) ← givenCodes source
      symbols codes turns output source
    else throw .corrupt
  return (last = 1, output, source)

def blocks (limit : Nat) :
    (turns : Nat) → Array UInt8 → BitSource → Inflating (Array UInt8 × Bytes)
  | 0, _, _ => .error .incomplete
  | turns + 1, output, source =>
    match block limit output source with
    | .error fault => .error fault
    | .ok (true, output, source) => .ok (output, source.align.rest)
    | .ok (false, output, source) => blocks limit turns output source

end Inflate

/-- The content of the deflate stream at the beginning, and the octets after it. -/
def inflate (bytes : Bytes) : Inflating (Bytes × Bytes) :=
  let turns := 8 * bytes.length + 1
  match Inflate.blocks turns turns #[] (.ofBytes bytes) with
  | .error fault => .error fault
  | .ok (output, rest) => .ok (output.toList, rest)

end GelfCourier.Gzip
