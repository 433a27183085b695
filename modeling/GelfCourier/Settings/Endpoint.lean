import GelfCourier.IoFault
import GelfCourier.Text.WholeNumber

/-!
The place that an address names: a host, and a number after the last colon. A host is a network
address in numbers or the machine's own name; any other host has no place. The numbers of a network
address may be decimal, octal behind a zero, or hexadecimal behind `0x`, and the last of fewer than
four numbers fills all octets that are left.
-/

set_option autoImplicit false

namespace GelfCourier

structure Endpoint where
  /-- The four octets of the network address as one number. -/
  address : UInt32
  number : UInt16
  deriving DecidableEq, Repr

namespace Endpoint

/-- What stands before the last colon, and what stands after it. -/
def splitAtLastColon (cs : List Char) : Option (List Char × List Char) :=
  if cs.contains ':' then
    let back := cs.reverse
    some ((back.dropWhile (· != ':')).tail.reverse, (back.takeWhile (· != ':')).reverse)
  else none

/-- The host and the number of an address. -/
def parse (address : String) : Except IoFault (List Char × UInt16) :=
  match splitAtLastColon address.toList with
  | none => .error ⟨.invalidInput, "invalid socket address"⟩
  | some (host, digits) =>
    match Text.naturalBelow? 65536 digits with
    | none => .error ⟨.invalidInput, "invalid port value"⟩
    | some number => .ok (host, number.toUInt16)

/-- One number of a network address. -/
def part? : List Char → Option Nat
  | '0' :: 'x' :: digits => Text.naturalIn? 16 digits
  | '0' :: 'X' :: digits => Text.naturalIn? 16 digits
  | '0' :: digits => Text.naturalIn? 8 ('0' :: digits)
  | digits => Text.naturalIn? 10 digits

/-- The parts of a text between dots. -/
def splitAtDots : List Char → List (List Char)
  | [] => [[]]
  | c :: rest =>
    match splitAtDots rest with
    | [] => [[c]]
    | part :: parts => if c = '.' then [] :: part :: parts else (c :: part) :: parts

/-- The number that the parts of a network address make when so many octets are left for them. -/
def join? : (octets : Nat) → List Nat → Option Nat
  | 0, _ => none
  | _ + 1, [] => none
  | octets + 1, [last] => if last < Nat.pow 256 (octets + 1) then some last else none
  | octets + 1, first :: rest =>
    if first < 256 then (join? octets rest).map fun n => first * Nat.pow 256 octets + n else none

def numericAddress? (host : List Char) : Option UInt32 := do
  let parts ← (splitAtDots host).mapM part?
  return (← join? 4 parts).toUInt32

def ownName : String := "localhost"

def ownAddress : UInt32 := 0x7f000001

/-- Looks a host up. -/
def resolve (address : String) : Except IoFault Endpoint :=
  match parse address with
  | .error fault => .error fault
  | .ok (host, number) =>
    if host.contains '\x00' then
      .error ⟨.invalidInput, "file name contained an unexpected NUL byte"⟩
    else
      match numericAddress? host with
      | some address => .ok ⟨address, number⟩
      | none =>
        if host.map Char.toLower = ownName.toList then .ok ⟨ownAddress, number⟩
        else
          .error ⟨.uncategorized,
            "failed to lookup address information: Name or service not known"⟩

/-- Whether an address stands for every machine of a network: of the machine's own, or of any. -/
def isBroadcast (endpoint : Endpoint) : Bool :=
  endpoint.address == 0x7fffffff || endpoint.address == 0xffffffff

end Endpoint

end GelfCourier
