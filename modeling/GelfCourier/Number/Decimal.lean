import GelfCourier.Number.Binary64

/-!
Decimal numerals: a natural coefficient times a power of ten. `toBinary64` reads a numeral as the
nearest 64-bit number. `shortest` goes back: the fewest digits that read back as the number, and of
those the nearest to it, a tie going to the even digit; the exact expansion stands behind it.
-/

set_option autoImplicit false

namespace GelfCourier

structure Decimal where
  coefficient : Nat
  exponent : Int
  deriving DecidableEq, Repr

namespace Decimal

/-- Moves trailing zeros of the coefficient into the exponent. -/
def strip (coefficient : Nat) (exponent : Int) : Decimal :=
  if h : coefficient = 0 then ⟨0, 0⟩
  else if coefficient % 10 = 0 then strip (coefficient / 10) (exponent + 1)
  else ⟨coefficient, exponent⟩
termination_by coefficient
decreasing_by omega

/-- The decimal digits of a natural, most significant first. -/
def digits (n : Nat) : List Nat :=
  if n < 10 then [n] else digits (n / 10) ++ [n % 10]
termination_by n
decreasing_by omega

def ofDigits (ds : List Nat) : Nat :=
  ds.foldl (fun n d => 10 * n + d) 0

/-- The number nearest to the numeral. A numeral beyond every finite number, or below half of the
least positive one, is settled by its size alone. -/
def round (negative : Bool) (coefficient : Nat) (exponent : Int) : Binary64 :=
  if coefficient = 0 then .zero negative
  else
    let size : Int := (digits coefficient).length + exponent
    if 309 < size then .infinity negative
    else if size < -324 then .zero negative
    else .ofRatio negative (coefficient * Nat.pow 10 exponent.toNat) (Nat.pow 10 (-exponent).toNat)

/-- The number nearest to the numeral, which is stripped of trailing zeros first. -/
def toBinary64 (negative : Bool) (d : Decimal) : Binary64 :=
  let stripped := strip d.coefficient d.exponent
  round negative stripped.coefficient stripped.exponent

/-- The position of the leading decimal digit of a quotient of positive naturals. -/
def leadingExponent (num den : Nat) : Int :=
  let guess : Int := ((digits num).length : Int) - (digits den).length
  if den * Nat.pow 10 guess.toNat ≤ num * Nat.pow 10 (-guess).toNat then guess else guess - 1

/-- The two neighbours of a quotient on the grid of multiples of a power of ten, the nearer first. Of
two that are equally near the one with the even last digit comes first. -/
def neighbours (num den : Nat) (exponent : Int) : List Decimal :=
  let top := num * Nat.pow 10 (-exponent).toNat
  let bottom := den * Nat.pow 10 exponent.toNat
  let below := top / bottom
  let twice := 2 * (top % bottom)
  if twice < bottom ∨ (twice = bottom ∧ below % 2 = 0) then
    [strip below exponent, strip (below + 1) exponent]
  else
    [strip (below + 1) exponent, strip below exponent]

/-- The whole decimal expansion of a finite value. -/
def exact (significand : Nat) (exponent : Int) : Decimal :=
  strip (significand * Nat.pow 2 exponent.toNat * Nat.pow 5 (-exponent).toNat) (min exponent 0)

/-- The shortest numeral that reads back as the number with this significand and exponent: the first
grid with a neighbour that does, from one digit up to seventeen. -/
def shortest (significand : Nat) (exponent : Int) : Decimal :=
  if h : Binary64.IsCanonical significand exponent then
    let target := Binary64.finite false significand exponent h
    let num := significand * Nat.pow 2 exponent.toNat
    let den := Nat.pow 2 (-exponent).toNat
    let leading := leadingExponent num den
    let found := (List.range 17).findSome? fun (more : Nat) =>
      (neighbours num den (leading - more)).find? fun d => d.toBinary64 false = target
    found.getD (exact significand exponent)
  else ⟨0, 0⟩

end Decimal

end GelfCourier
