/-!
Whole numbers in plain decimal text: an optional sign and at least one ASCII digit.
-/

set_option autoImplicit false

namespace GelfCourier.Text

def isDigit (c : Char) : Bool :=
  '0' ≤ c && c ≤ '9'

def digitValue (c : Char) : Nat :=
  c.toNat - '0'.toNat

/-- The value of a non-empty run of digits. -/
def natural? (cs : List Char) : Option Nat :=
  if cs.isEmpty || cs.any (fun c => !isDigit c) then none
  else some (cs.foldl (fun n c => 10 * n + digitValue c) 0)

/-- The value of a digit in a base of at most sixteen, with letters of either case after nine. -/
def digitIn? (base : Nat) (c : Char) : Option Nat :=
  let value :=
    if isDigit c then digitValue c
    else if 'a' ≤ c ∧ c ≤ 'f' then c.toNat - 'a'.toNat + 10
    else if 'A' ≤ c ∧ c ≤ 'F' then c.toNat - 'A'.toNat + 10
    else base
  if value < base then some value else none

/-- The value of a non-empty run of digits in a base. -/
def naturalIn? (base : Nat) (cs : List Char) : Option Nat :=
  if cs.isEmpty then none
  else (cs.mapM (digitIn? base)).map fun ds => ds.foldl (fun n d => base * n + d) 0

/-- A natural below a bound; a plus sign may stand in front, a minus sign may not. -/
def naturalBelow? (bound : Nat) (cs : List Char) : Option Nat := do
  let n ← natural? (match cs with | '+' :: rest => rest | _ => cs)
  if n < bound then some n else none

/-- An integer from `low` to `high`; one sign may stand in front. -/
def integerWithin? (low high : Int) (cs : List Char) : Option Int := do
  let n : Int ← match cs with
    | '+' :: rest => (natural? rest).map Int.ofNat
    | '-' :: rest => (natural? rest).map fun n => -(n : Int)
    | _ => (natural? cs).map Int.ofNat
  if low ≤ n ∧ n ≤ high then some n else none

end GelfCourier.Text
