import GelfCourier.Json.NumberText
import GelfCourier.Json.Text
import GelfCourier.Number.Leading

/-!
Number tokens. An integer that fits 64 bits stays an integer; minus zero, larger integers and every
token with a point or an exponent are floats, read by their leading digits, and a float beyond the
finite range is refused.
-/

set_option autoImplicit false

namespace GelfCourier.Json

def isDigit (b : UInt8) : Bool := 0x30 ≤ b && b ≤ 0x39

def digitValues (ds : Bytes) : List Nat :=
  ds.map fun d => d.toNat - 0x30

/-- A non-empty run of digits, as far as it goes. -/
def digitRun (s : Bytes) : Reading Bytes :=
  match s with
  | [] => .error .truncated
  | c :: _ => if isDigit c then .ok (s.takeWhile isDigit, s.dropWhile isDigit) else .error .malformed

/-- The digits before the point: one zero, or a run that does not begin with zero. -/
def wholePart : Bytes → Reading Bytes
  | 0x30 :: c :: rest => if isDigit c then .error .malformed else .ok ([0x30], c :: rest)
  | s => digitRun s

/-- The digits after a point, if there is one. -/
def fractionPart (s : Bytes) : Reading (Option Bytes) :=
  match s with
  | 0x2e :: rest => (digitRun rest).map fun (ds, after) => (some ds, after)
  | _ => .ok (none, s)

/-- Whether an exponent has a minus sign, and what comes after its sign. -/
def exponentSign : Bytes → Bool × Bytes
  | 0x2b :: rest => (false, rest)
  | 0x2d :: rest => (true, rest)
  | s => (false, s)

/-- The exponent after the letter e in either case, if there is one. -/
def exponentPart (s : Bytes) : Reading (Option Int) :=
  match s with
  | c :: rest =>
    if c = 0x65 ∨ c = 0x45 then
      let (negative, digits) := exponentSign rest
      (digitRun digits).map fun (ds, after) =>
        let size : Int := Decimal.ofDigits (digitValues ds)
        (some (if negative then -size else size), after)
    else .ok (none, s)
  | [] => .ok (none, s)

/-- The float with these digits before and after the point, where it is finite. -/
def floatOf (negative : Bool) (whole places : Bytes) (exponent : Int) : Except Fault Number :=
  let x := (Leading.ofDigits (digitValues whole) (digitValues places) exponent).toBinary64 negative
  if h : x.IsFinite then .ok (.float x h) else .error .malformed

/-- The number that a token without fraction and exponent stands for. -/
def wholeNumber (negative : Bool) (whole : Bytes) : Except Fault Number :=
  let magnitude : Int := Decimal.ofDigits (digitValues whole)
  let n := if negative then -magnitude else magnitude
  if h : -9223372036854775808 ≤ n ∧ n < 18446744073709551616 then
    if negative ∧ magnitude = 0 then floatOf negative whole [] 0 else .ok (.integer n h)
  else floatOf negative whole [] 0

/-- The number that the parts of a token stand for. -/
def numberOfParts (negative : Bool) (whole : Bytes) (fraction : Option Bytes)
    (exponent : Option Int) : Except Fault Number :=
  match fraction, exponent with
  | none, none => wholeNumber negative whole
  | _, _ => floatOf negative whole (fraction.getD []) (exponent.getD 0)

def unsignedNumber (negative : Bool) (s : Bytes) : Except Fault (Number × Bytes) := do
  let (whole, s) ← wholePart s
  let (fraction, s) ← fractionPart s
  let (exponent, s) ← exponentPart s
  let number ← numberOfParts negative whole fraction exponent
  return (number, s)

def number : Bytes → Reading Number
  | 0x2d :: rest => unsignedNumber true rest
  | s => unsignedNumber false s

end GelfCourier.Json
