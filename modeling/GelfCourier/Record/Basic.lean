import GelfCourier.Json.Tree
import GelfCourier.Message.Severity

/-!
One log call: its time, level, text, named fields and place in the program. A field holds a value or
a failure; a failure keeps its causes, outermost first, and the trace taken where it arose.
-/

set_option autoImplicit false

namespace GelfCourier

/-- Whole seconds since the epoch and nanoseconds on top; a leap second has more than 10^9 of them. -/
structure Instant where
  seconds : Int := 0
  nanoseconds : Nat := 0
  deriving DecidableEq, Repr

namespace Instant

def milliseconds (time : Instant) : Int :=
  time.seconds * 1000 + (time.nanoseconds / 1000000 : Nat)

/-- Seconds since the epoch, from the whole milliseconds. -/
def toBinary64 (time : Instant) : Binary64 :=
  (Binary64.ofInt time.milliseconds).divNat 1000

end Instant

structure Failure where
  /-- Outermost first. -/
  causes : List String
  trace : Option String := none
  deriving DecidableEq, Repr

/-- All causes on one line. -/
def Failure.message (failure : Failure) : String :=
  ": ".intercalate failure.causes

inductive FieldValue where
  | plain (value : Json.Value)
  | failure (cause : Failure)

/-- What the field shows on the wire. -/
def FieldValue.toValue : FieldValue → Json.Value
  | .plain value => value
  | .failure cause => .string cause.message

/-- The place of a log call. -/
structure Caller where
  file : String
  line : UInt32
  function : String
  deriving DecidableEq, Repr

structure Record where
  time : Instant := {}
  level : Level
  message : String
  fields : Fields FieldValue := .empty
  caller : Option Caller := none

end GelfCourier
