import GelfCourier.Gzip.Inflate

/-!
Packing octets into a deflate stream: repeated stretches become copies, and the result is one block
under the fixed codes or under codes made for it, whichever is shorter. `storedBlocks` packs without
any compression.
-/

set_option autoImplicit false

namespace GelfCourier.Gzip

namespace Deflate

inductive Token where
  | literal (value : UInt8)
  | copy (length distance : Nat)
  deriving Repr

def minCopy : Nat := 3

def maxCopy : Nat := 258

def maxDistance : Nat := 32768

def bucketCount : Nat := 32768

/-- The bucket of the three octets at a position. -/
def bucket (data : Array UInt8) (position : Nat) : Nat :=
  let octet (i : Nat) : Nat := (data.getD (position + i) 0).toNat
  ((octet 0 * 256 + octet 1) * 256 + octet 2) * 40503 / 32 % bucketCount

/-- How far the octets at two positions agree, up to a limit. -/
def agreement (data : Array UInt8) (earlier later : Nat) : (limit : Nat) → (agreed : Nat) → Nat
  | 0, agreed => agreed
  | limit + 1, agreed =>
    if data.getD (earlier + agreed) 0 = data.getD (later + agreed) 0 then
      agreement data earlier later limit (agreed + 1)
    else agreed

/-- Reads the data from a position on. `seen` holds for each bucket one more than the last position
that fell into it, or zero. -/
def tokensFrom (data : Array UInt8) :
    (turns : Nat) → (position : Nat) → (seen : Array Nat) → (tokens : Array Token) → Array Token
  | 0, _, _, tokens => tokens
  | turns + 1, position, seen, tokens =>
    if data.size ≤ position then tokens
    else
      let left := data.size - position
      if left < minCopy then
        tokensFrom data turns (position + 1) seen
          (tokens.push (.literal (data.getD position 0)))
      else
        let index := bucket data position
        let candidate := seen.getD index 0
        let seen := seen.setIfInBounds index (position + 1)
        let distance := position + 1 - candidate
        let length :=
          if candidate = 0 ∨ maxDistance < distance then 0
          else agreement data (candidate - 1) position (min maxCopy left) 0
        if minCopy ≤ length then
          tokensFrom data turns (position + length) seen (tokens.push (.copy length distance))
        else
          tokensFrom data turns (position + 1) seen
            (tokens.push (.literal (data.getD position 0)))

def tokens (data : Array UInt8) : Array Token :=
  tokensFrom data data.size 0 (Array.replicate bucketCount 0) #[]

/-- The last row of a table whose least value is at most the given one. -/
def tableIndex (table : Array (Nat × Nat)) (value : Nat) : Nat :=
  (table.toList.zipIdx.foldl
    (fun (found : Nat) entry => if entry.1.1 ≤ value then entry.2 else found) 0)

/-- The table rows of all lengths. -/
def lengthIndex : Array Nat :=
  (Array.range (maxCopy + 1)).map (tableIndex Inflate.lengthTable)

/-- The table rows of all distances. -/
def distanceIndex : Array Nat :=
  (Array.range (maxDistance + 1)).map (tableIndex Inflate.distanceTable)

def endSymbol : Nat := 256

def literalCount : Nat := 286

def distanceCount : Nat := 30

/-- How often each symbol occurs, for literals and lengths and for distances. Two symbols of each kind
are counted at least once, so that both codes are complete. -/
def frequencies (tokens : Array Token) : Array Nat × Array Nat :=
  let start : Array Nat × Array Nat :=
    (((Array.replicate literalCount 0).set! 0 1).set! endSymbol 1,
      ((Array.replicate distanceCount 0).set! 0 1).set! 1 1)
  tokens.foldl
    (fun (counts : Array Nat × Array Nat) token =>
      match token with
      | .literal value => (counts.1.modify value.toNat (· + 1), counts.2)
      | .copy length distance =>
        (counts.1.modify (257 + lengthIndex.getD length 0) (· + 1),
          counts.2.modify (distanceIndex.getD distance 0) (· + 1)))
    start

/-- Bits taken by all symbols together, the extra bits aside. -/
def cost (frequencies : Array Nat) (lengths : List Nat) : Nat :=
  (frequencies.toList.zip lengths).foldl (fun sum entry => sum + entry.1 * entry.2) 0

def putTokens (literalWords distanceWords : Array (Nat × Nat)) (tokens : Array Token)
    (sink : BitSink) : BitSink :=
  let putSymbol (words : Array (Nat × Nat)) (symbol : Nat) (sink : BitSink) : BitSink :=
    let word := words.getD symbol (0, 0)
    sink.put word.1 word.2
  let sink := tokens.foldl
    (fun (sink : BitSink) token =>
      match token with
      | .literal value => putSymbol literalWords value.toNat sink
      | .copy length distance =>
        let row := lengthIndex.getD length 0
        let (least, extra) := Inflate.lengthTable.getD row (0, 0)
        let sink := (putSymbol literalWords (257 + row) sink).put extra (length - least)
        let row := distanceIndex.getD distance 0
        let (least, extra) := Inflate.distanceTable.getD row (0, 0)
        (putSymbol distanceWords row sink).put extra (distance - least))
    sink
  putSymbol literalWords endSymbol sink

def fixedLiteralLengths : List Nat :=
  List.replicate 144 8 ++ List.replicate 112 9 ++ List.replicate 24 7 ++ List.replicate 8 8

def fixedDistanceLengths : List Nat :=
  List.replicate 32 5

/-- One last block that holds everything. -/
def compressed (data : Bytes) : Bytes :=
  let tokens := tokens data.toArray
  let (literalCounts, distanceCounts) := frequencies tokens
  let literalLengths := PrefixCode.limitedLengths 15 literalCounts
  let distanceLengths := PrefixCode.limitedLengths 15 distanceCounts
  let all := literalLengths ++ distanceLengths
  let lengthCounts := all.foldl
    (fun (counts : Array Nat) length => counts.modify length (· + 1))
    (((Array.replicate 19 0).set! 0 1).set! 1 1)
  let lengthLengths := PrefixCode.limitedLengths 7 lengthCounts
  let given := 14 + 3 * 19 + cost lengthCounts lengthLengths +
    cost literalCounts literalLengths + cost distanceCounts distanceLengths
  let fixed := cost literalCounts fixedLiteralLengths + cost distanceCounts fixedDistanceLengths
  let sink : BitSink := {}
  let sink :=
    if given < fixed then
      let sink := ((((sink.put 1 1).put 2 2).put 5 (literalCount - 257)).put 5
        (distanceCount - 1)).put 4 (19 - 4)
      let sink := Inflate.lengthOrder.foldl
        (fun (sink : BitSink) symbol => sink.put 3 (lengthLengths.getD symbol 0)) sink
      let lengthWords := PrefixCode.words lengthLengths
      let sink := all.foldl
        (fun (sink : BitSink) length =>
          let word := lengthWords.getD length (0, 0)
          sink.put word.1 word.2) sink
      putTokens (PrefixCode.words literalLengths) (PrefixCode.words distanceLengths) tokens sink
    else
      putTokens (PrefixCode.words fixedLiteralLengths)
        (PrefixCode.words fixedDistanceLengths) tokens ((sink.put 1 1).put 2 1)
  sink.finish.toList

/-- The most octets that a stored block holds. -/
def maxStored : Nat := 65535

def storedBlock (last : Bool) (content : Bytes) : Bytes :=
  (if last then 1 else 0) :: Bytes.littleEndian 2 content.length ++
    Bytes.littleEndian 2 (65535 - content.length) ++ content

def storedBlocks (data : Bytes) : Bytes :=
  if data.length ≤ maxStored then storedBlock true data
  else storedBlock false (data.take maxStored) ++ storedBlocks (data.drop maxStored)
termination_by data.length
decreasing_by simp only [maxStored, List.length_drop] at *; omega

end Deflate

end GelfCourier.Gzip
