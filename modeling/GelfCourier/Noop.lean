import GelfCourier.Fault

/-!
A transport that takes every message and keeps none. It counts them, closed or not.
-/

set_option autoImplicit false

namespace GelfCourier

structure Noop where
  /-- Messages taken so far. -/
  sent : Nat := 0
  deriving DecidableEq, Repr

namespace Noop

def name : String := "noop"

def send (noop : Noop) (_ : Message) : Noop × Except TransportFault Unit :=
  ({ noop with sent := noop.sent + 1 }, .ok ())

/-- There is nothing to read back. -/
def consume (noop : Noop) : Noop × Except TransportFault Unit :=
  (noop, .error (.unsupported name))

def close (noop : Noop) : Noop × Except TransportFault Unit :=
  (noop, .ok ())

end Noop

end GelfCourier
