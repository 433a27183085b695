import GelfCourier.Json.Tree
import GelfCourier.Number.Decimal
import GelfCourier.Text.Bytes

/-!
The written form of JSON numbers. Integers are plain decimals. A float has the fewest digits that
read back; it is positional from 0.00001 up to sixteen whole digits, with at least one digit after
the point, and otherwise in scientific form with a signed exponent.
-/

set_option autoImplicit false

namespace GelfCourier.Json

def digitBytes (ds : List Nat) : Bytes :=
  ds.map fun d => (0x30 + d).toUInt8

def naturalBytes (n : Nat) : Bytes :=
  digitBytes (Decimal.digits n)

def integerBytes (n : Int) : Bytes :=
  if n < 0 then 0x2d :: naturalBytes n.natAbs else naturalBytes n.natAbs

def zeros (count : Nat) : Bytes :=
  List.replicate count 0x30

/-- Digits with a point after the digit at the position of the units. -/
def positional (ds : Bytes) (leading : Int) : Bytes :=
  if leading < 0 then [0x30, 0x2e] ++ zeros (-leading - 1).toNat ++ ds
  else
    let whole := leading.toNat + 1
    if ds.length ≤ whole then ds ++ zeros (whole - ds.length) ++ [0x2e, 0x30]
    else ds.take whole ++ [0x2e] ++ ds.drop whole

/-- One digit, the others after a point, and the exponent with its sign. -/
def scientific (ds : Bytes) (leading : Int) : Bytes :=
  let mantissa := match ds with
    | first :: second :: rest => first :: 0x2e :: second :: rest
    | _ => ds
  let sign : UInt8 := if leading < 0 then 0x2d else 0x2b
  mantissa ++ [0x65, sign] ++ naturalBytes leading.natAbs

/-- The text of a positive numeral without trailing zeros. -/
def decimalBytes (d : Decimal) : Bytes :=
  let ds := naturalBytes d.coefficient
  let leading : Int := d.exponent + ds.length - 1
  if -5 ≤ leading ∧ leading ≤ 15 then positional ds leading else scientific ds leading

def floatBytes : Binary64 → Bytes
  | .finite negative significand exponent _ =>
    let body :=
      if significand = 0 then [0x30, 0x2e, 0x30]
      else decimalBytes (Decimal.shortest significand exponent)
    if negative then 0x2d :: body else body
  | _ => [0x6e, 0x75, 0x6c, 0x6c]

def Number.bytes : Number → Bytes
  | .integer n _ => integerBytes n
  | .float x _ => floatBytes x

end GelfCourier.Json
