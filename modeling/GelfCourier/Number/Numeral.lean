import GelfCourier.Number.Decimal
import GelfCourier.Text.WholeNumber

/-!
Floats written for a person: an optional sign, then digits with an optional point and exponent, or one
of the words for the values that are not finite, in any case of letters.
-/

set_option autoImplicit false

namespace GelfCourier.Numeral

open Text (isDigit digitValue)

def digitsOf (cs : List Char) : List Nat :=
  cs.map digitValue

/-- The exponent after the letter e; nothing stands for zero. -/
def exponent? : List Char → Option Int
  | [] => some 0
  | c :: rest =>
    if c ≠ 'e' ∧ c ≠ 'E' then none
    else match rest with
      | '+' :: ds => (Text.natural? ds).map Int.ofNat
      | '-' :: ds => (Text.natural? ds).map fun n => -(n : Int)
      | ds => (Text.natural? ds).map Int.ofNat

def unsigned? (negative : Bool) (cs : List Char) : Option Binary64 :=
  let word := cs.map Char.toLower
  if word = "inf".toList ∨ word = "infinity".toList then some (.infinity negative)
  else if word = "nan".toList then some .nan
  else
    let whole := cs.takeWhile isDigit
    let rest := cs.dropWhile isDigit
    let (places, rest) := match rest with
      | '.' :: rest => (rest.takeWhile isDigit, rest.dropWhile isDigit)
      | _ => ([], rest)
    if whole.isEmpty && places.isEmpty then none
    else (exponent? rest).map fun exponent =>
      Decimal.toBinary64 negative
        ⟨Decimal.ofDigits (digitsOf (whole ++ places)), exponent - places.length⟩

def toBinary64? (s : String) : Option Binary64 :=
  match s.toList with
  | '-' :: rest => unsigned? true rest
  | '+' :: rest => unsigned? false rest
  | cs => unsigned? false cs

end GelfCourier.Numeral
