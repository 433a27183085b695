import GelfCourier.Gzip.Bits

/-!
Canonical prefix codes given by the length of each symbol's code word. Words of one length are
consecutive numbers in the order of the symbols, and shorter words come first.
-/

set_option autoImplicit false

namespace GelfCourier.Gzip

/-- The symbols of each length from one up, in ascending order. There is at least one level, so that
even a code without words reads a bit before it is found to have none. -/
structure PrefixCode where
  levels : List (Array Nat)

namespace PrefixCode

/-- The longest code word. -/
def maxLength : Nat := 15

def symbolsOfLength (lengths : List Nat) (length : Nat) : Array Nat :=
  (lengths.zipIdx.filterMap fun entry =>
    if entry.1 = length then some entry.2 else none).toArray

def ofLengths (lengths : List Nat) : PrefixCode :=
  let longest := lengths.foldl max 1
  ⟨(List.range longest).map fun shorter => symbolsOfLength lengths (shorter + 1)⟩

/-- The share of all words of the greatest length that the code's words begin. -/
def weight (lengths : List Nat) : Nat :=
  lengths.foldl
    (fun sum length => if length = 0 then sum else sum + Nat.pow 2 (maxLength - length)) 0

/-- Every sequence of bits begins with exactly one code word. -/
def isComplete (lengths : List Nat) : Bool :=
  weight lengths = Nat.pow 2 maxLength

/-- How reading one symbol ends. -/
inductive Outcome where
  | symbol (value : Nat) (source : BitSource)
  | noWord
  | exhausted

/-- Reads bits until they are the word of a symbol. `first` is the least word of the length reached so
far, and `word` the bits read. -/
def decodeFrom : (levels : List (Array Nat)) → (first word : Nat) → BitSource → Outcome
  | [], _, _, _ => .noWord
  | symbols :: levels, first, word, source =>
    match source.next? with
    | none => .exhausted
    | some (bit, source) =>
      let first := 2 * first
      let word := 2 * word + bit.toNat
      match symbols[word - first]? with
      | some value => .symbol value source
      | none => decodeFrom levels (first + symbols.size) word source

def decode (code : PrefixCode) (source : BitSource) : Outcome :=
  decodeFrom code.levels 0 0 source

/-- The bits of a word of the given width in the opposite order. -/
def reverseBits : (width word : Nat) → Nat
  | 0, _ => 0
  | width + 1, word => (word % 2) * Nat.pow 2 width + reverseBits width (word / 2)

/-- For every symbol the width of its word and the word as the bit sink takes it. -/
def words (lengths : List Nat) : Array (Nat × Nat) :=
  let empty : Array (Nat × Nat) := Array.replicate lengths.length (0, 0)
  let longest := lengths.foldl max 0
  let filled := (List.range longest).foldl
    (fun (state : Array (Nat × Nat) × Nat) shorter =>
      let width := shorter + 1
      let first := 2 * state.2
      (symbolsOfLength lengths width).foldl
        (fun (state : Array (Nat × Nat) × Nat) symbol =>
          (state.1.set! symbol (width, reverseBits width state.2), state.2 + 1))
        (state.1, first))
    (empty, 0)
  filled.1

/-! Code lengths for given frequencies, none above a limit: coins of each length are paired up, and
the cheapest of the last round say how long each word becomes. -/

/-- The total frequency of some symbols, which may occur more than once. -/
abbrev Coin := Nat × List Nat

def pairUp : List Coin → List Coin
  | a :: b :: rest => (a.1 + b.1, a.2 ++ b.2) :: pairUp rest
  | _ => []

/-- For every symbol of non-zero frequency the length of its word. -/
def limitedLengths (limit : Nat) (frequencies : Array Nat) : List Nat :=
  let leaves : List Coin :=
    (frequencies.toList.zipIdx.filterMap fun entry =>
      if entry.1 = 0 then none else some (entry.1, [entry.2])).mergeSort
      fun a b => a.1 ≤ b.1
  let round (coins : List Coin) : List Coin :=
    (leaves ++ pairUp coins).mergeSort fun a b => a.1 ≤ b.1
  let coins := (List.range (limit - 1)).foldl (fun coins _ => round coins) leaves
  let chosen := coins.take (2 * leaves.length - 2)
  let counts := chosen.foldl
    (fun (counts : Array Nat) coin =>
      coin.2.foldl (fun counts symbol => counts.modify symbol (· + 1)) counts)
    (Array.replicate frequencies.size 0)
  counts.toList

end PrefixCode

end GelfCourier.Gzip
