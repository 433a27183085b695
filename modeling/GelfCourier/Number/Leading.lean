import GelfCourier.Number.Binary64

/-!
Numerals read by their leading digits. The digits that fit 64 bits make a whole significand, which is
rounded to a float and then moved by a power of ten with a rounding in every step. The result can
stand beside the number that is nearest to the numeral, and a step that leaves the finite range makes
it infinite.
-/

set_option autoImplicit false

namespace GelfCourier

/-- The leading digits of a numeral as a natural below 2^64, times a power of ten. -/
structure Leading where
  significand : Nat
  exponent : Int
  deriving DecidableEq, Repr

namespace Leading

/-- Appends digits as long as the significand stays below 2^64, and returns those left over. -/
def absorb (significand : Nat) : List Nat → Nat × List Nat
  | [] => (significand, [])
  | d :: ds =>
    if 10 * significand + d < 18446744073709551616 then absorb (10 * significand + d) ds
    else (significand, d :: ds)

/-- The digits before and after the point. Of those left over, the ones before the point still count
in the exponent and the ones after it do not count at all. -/
def ofDigits (whole places : List Nat) (exponent : Int) : Leading :=
  let (significand, skipped) := absorb 0 whole
  let (significand, dropped) := absorb significand places
  ⟨significand, skipped.length - (places.length - dropped.length : Nat) + exponent⟩

/-- The float nearest to a power of ten, which is a natural. -/
def powerOfTen (exponent : Nat) : Nat :=
  ((Binary64.ofRatio false (Nat.pow 10 exponent) 1).truncate?.getD 0).toNat

/-- A float moved by a power of ten: in one step where the power itself is a finite float, and else
down by 308 places in each step until it vanishes. -/
def shift (x : Binary64) (exponent : Int) : Binary64 :=
  if -308 ≤ exponent then
    if exponent < 0 then x.divNat (powerOfTen (-exponent).toNat)
    else if exponent ≤ 308 then x.mulNat (powerOfTen exponent.toNat)
    else if x.isZero then x
    else .infinity false
  else if x.isZero then x
  else shift (x.divNat (powerOfTen 308)) (exponent + 308)
termination_by (-exponent).toNat
decreasing_by omega

def toBinary64 (negative : Bool) (n : Leading) : Binary64 :=
  shift (.ofRatio negative n.significand 1) n.exponent

end Leading

end GelfCourier
