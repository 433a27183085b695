/-!
Binary floating-point numbers of 64 bits as exact values. A finite number is a sign, a whole
significand and a power of two, written in the one way that the format has for it, so equality of
terms is equality of bit patterns. `ofRatio` rounds a quotient of naturals to the nearest number,
a half to the even significand; every other rounding here goes through it.
-/

set_option autoImplicit false

namespace GelfCourier

/-- The pairs that write a finite value in the format: a significand below 2^53 that is at least 2^52
or stands at the least exponent. -/
def Binary64.IsCanonical (significand : Nat) (exponent : Int) : Prop :=
  significand < 9007199254740992 ∧ -1074 ≤ exponent ∧ exponent ≤ 971 ∧
    (4503599627370496 ≤ significand ∨ exponent = -1074)

instance (significand : Nat) (exponent : Int) :
    Decidable (Binary64.IsCanonical significand exponent) := by
  unfold Binary64.IsCanonical
  infer_instance

inductive Binary64 where
  | nan
  | infinity (negative : Bool)
  | finite (negative : Bool) (significand : Nat) (exponent : Int)
      (canonical : Binary64.IsCanonical significand exponent)
  deriving DecidableEq

namespace Binary64

def isZero : Binary64 → Bool
  | .finite _ m _ _ => m == 0
  | _ => false

def IsFinite : Binary64 → Prop
  | .finite .. => True
  | _ => False

instance : DecidablePred IsFinite
  | .nan => .isFalse id
  | .infinity _ => .isFalse id
  | .finite .. => .isTrue trivial

theorem zero_canonical : IsCanonical 0 (-1074) := by decide

def zero (negative : Bool) : Binary64 :=
  .finite negative 0 (-1074) zero_canonical

/-- Equality as the format compares: no `nan` equals anything, and the two zeros are equal. -/
def numericEq : Binary64 → Binary64 → Bool
  | .infinity s, .infinity t => s == t
  | .finite s m e _, .finite t n f _ => m == n && (m == 0 || (s == t && e == f))
  | _, _ => false

/-- The quotient rounded to the nearest natural, a half to the even neighbour. -/
def roundHalfEven (num den : Nat) : Nat :=
  let quotient := num / den
  let twice := 2 * (num % den)
  if twice < den then quotient
  else if den < twice then quotient + 1
  else if quotient % 2 = 0 then quotient
  else quotient + 1

/-- The power of two at or below the quotient of two positive naturals. -/
def binaryExponent (num den : Nat) : Int :=
  let guess : Int := (Nat.log2 num : Int) - Nat.log2 den
  if den * Nat.pow 2 guess.toNat ≤ num * Nat.pow 2 (-guess).toNat then guess else guess - 1

/-- A significand of at most 53 bits at its exponent; above the largest exponent, infinity. -/
def ofScaled (negative : Bool) (significand : Nat) (exponent : Int) : Binary64 :=
  if h : IsCanonical significand exponent then .finite negative significand exponent h
  else .infinity negative

/-- The number nearest to a quotient, ties to the even significand. -/
def ofRatio (negative : Bool) (num den : Nat) : Binary64 :=
  if num = 0 then zero negative
  else
    let exponent := max (-1074) (binaryExponent num den - 52)
    let significand :=
      roundHalfEven (num * Nat.pow 2 (-exponent).toNat) (den * Nat.pow 2 exponent.toNat)
    if significand = 9007199254740992 then ofScaled negative 4503599627370496 (exponent + 1)
    else ofScaled negative significand exponent

def ofInt (n : Int) : Binary64 :=
  ofRatio (n < 0) n.natAbs 1

/-- Multiplication by a natural. -/
def mulNat (x : Binary64) (factor : Nat) : Binary64 :=
  match x with
  | .finite s m e _ =>
    ofRatio s (m * factor * Nat.pow 2 e.toNat) (Nat.pow 2 (-e).toNat)
  | other => other

/-- Division by a positive natural. -/
def divNat (x : Binary64) (divisor : Nat) : Binary64 :=
  match x with
  | .finite s m e _ =>
    ofRatio s (m * Nat.pow 2 e.toNat) (divisor * Nat.pow 2 (-e).toNat)
  | other => other

/-- The value cut off after the point, where it is finite. -/
def truncate? : Binary64 → Option Int
  | .finite s m e _ =>
    let magnitude : Int := ((m * Nat.pow 2 e.toNat) / Nat.pow 2 (-e).toNat : Nat)
    some (if s then -magnitude else magnitude)
  | _ => none

/-- The signed 64-bit integer nearest to an integer. -/
def clampInt64 (n : Int) : Int64 :=
  if n < -9223372036854775808 then Int64.minValue
  else if 9223372036854775808 ≤ n then Int64.maxValue
  else Int64.ofInt n

/-- The value cut off after the point and moved into the signed 64-bit range; `nan` becomes 0. -/
def toInt64 (x : Binary64) : Int64 :=
  match x with
  | .nan => 0
  | .infinity true => Int64.minValue
  | .infinity false => Int64.maxValue
  | x@(.finite ..) => clampInt64 (x.truncate?.getD 0)

end Binary64

end GelfCourier
