import GelfCourier.Payload
import GelfCourier.Settings.Address

/-!
Faults of sending, by cause, with their wording and the cause beneath them.
-/

set_option autoImplicit false

namespace GelfCourier

inductive TransportFault where
  | settings (fault : SettingsFault)
  | codec (fault : CodecFault)
  | io (fault : IoFault)
  | tooManyChunks (needed : Nat)
  | shortWrite (written expected : Nat)
  | redialExhausted (address : String) (attempts : Nat) (last : IoFault)
  /-- The broker refused a connection or a command. -/
  | broker
  | featureDisabled (feature : String)
  | closed
  | unsupported (transport : String)
  deriving DecidableEq, Repr

namespace TransportFault

def message : TransportFault → String
  | .settings fault => fault.message
  | .codec fault => fault.message
  | .io fault => "network error: " ++ fault.text
  | .tooManyChunks needed => "message too large, would need " ++ toString needed ++ " chunks"
  | .shortWrite written expected =>
    "short write: " ++ toString written ++ "/" ++ toString expected ++ " bytes"
  | .redialExhausted address attempts last =>
    "reconnecting to " ++ address ++ " failed after " ++ toString attempts ++ " attempts: " ++
      last.text
  | .broker => "redis error: the command failed"
  | .featureDisabled feature => feature ++ " feature is not enabled"
  | .closed => "transport is closed"
  | .unsupported transport => transport ++ " transport does not support consuming"

/-- The text of the fault beneath, where there is one of its own. -/
def source? : TransportFault → Option String
  | .codec (.compression fault) => some fault.text
  | .io fault => some fault.text
  | .redialExhausted _ _ last => some last.text
  | _ => none

end TransportFault

inductive HookFault where
  | transport (fault : TransportFault)
  /-- A waiting hook has no queue. -/
  | synchronous
  deriving DecidableEq, Repr

namespace HookFault

def message : HookFault → String
  | .transport fault => fault.message
  | .synchronous => "hook is synchronous; records must be sent with `fire`"

def source? : HookFault → Option String
  | .transport fault => fault.source?
  | .synchronous => none

end HookFault

end GelfCourier
