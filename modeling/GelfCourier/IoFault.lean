/-!
Faults of reading and writing: what kind they are, and a text of their own.
-/

set_option autoImplicit false

namespace GelfCourier

inductive IoKind where
  | invalidInput
  | unexpectedEof
  | connectionRefused
  | connectionReset
  | permissionDenied
  | networkUnreachable
  | uncategorized
  | other
  deriving DecidableEq, Repr

def IoKind.name : IoKind → String
  | .invalidInput => "InvalidInput"
  | .unexpectedEof => "UnexpectedEof"
  | .connectionRefused => "ConnectionRefused"
  | .connectionReset => "ConnectionReset"
  | .permissionDenied => "PermissionDenied"
  | .networkUnreachable => "NetworkUnreachable"
  | .uncategorized => "Uncategorized"
  | .other => "Other"

structure IoFault where
  kind : IoKind
  text : String
  deriving DecidableEq, Repr

end GelfCourier
