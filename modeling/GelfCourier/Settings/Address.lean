import GelfCourier.Text.Percent
import GelfCourier.Text.Quoted

/-!
Where messages are sent: a datagram or stream address of the form `scheme://place`, or a list
kept by a broker. Schemes are read in any case of ASCII letters.
-/

set_option autoImplicit false

namespace GelfCourier

inductive SettingsFault where
  | unknownScheme (address : String)
  | missingAddress (address : String)
  | invalidNumber (name value : String)
  deriving DecidableEq, Repr

def SettingsFault.message : SettingsFault → String
  | .unknownScheme address => "unknown or unsupported address scheme: " ++ address
  | .missingAddress address => "no host:port given in " ++ address
  | .invalidNumber name value =>
    name ++ " must be a number, got " ++ Text.quoted value

/-- How often and at what pace a broken connection is dialled again. -/
structure RedialPolicy where
  /-- Without a bound, dialling goes on forever. -/
  maxAttempts : Option UInt32 := none
  intervalMs : Nat := 1000
  deriving DecidableEq, Repr

structure BrokerSettings where
  address : String := "127.0.0.1:6379"
  username : Option String := none
  password : Option String := none
  database : Int64 := 0
  /-- The list that messages are pushed to and popped from. -/
  queue : String := "graylog"
  poolSize : Nat := 4
  retryMs : Nat := 1000
  deriving DecidableEq

namespace BrokerSettings

/-- The percent-encoded credentials and the mark that ends them. -/
def credentials (settings : BrokerSettings) : String :=
  match settings.username, settings.password with
  | some user, some pass => Text.Percent.encode user ++ ":" ++ Text.Percent.encode pass ++ "@"
  | none, some pass => ":" ++ Text.Percent.encode pass ++ "@"
  | some user, none => Text.Percent.encode user ++ "@"
  | none, none => ""

def url (settings : BrokerSettings) : String :=
  "redis://" ++ settings.credentials ++ settings.address ++ "/" ++ toString settings.database.toInt

end BrokerSettings

inductive Destination where
  | datagram (address : String)
  | stream (address : String) (policy : RedialPolicy)
  | durable (settings : BrokerSettings)
  deriving DecidableEq

namespace Destination

/-- The name of the transport for a destination. -/
def transportName : Destination → String
  | .datagram _ => "udp"
  | .stream .. => "tcp"
  | .durable _ => "redis"

/-- Whether messages can be read back from a destination. -/
def isReadable : Destination → Bool
  | .durable _ => true
  | _ => false

def schemeLength : Nat := 6

def parse (address : String) : Except SettingsFault Destination :=
  let cs := address.toList
  let scheme := (cs.take schemeLength).map Char.toLower
  let rest := String.ofList (cs.drop schemeLength)
  if scheme = "tcp://".toList then
    if rest = "" then .error (.missingAddress address) else .ok (.stream rest {})
  else if scheme = "udp://".toList then
    if rest = "" then .error (.missingAddress address) else .ok (.datagram rest)
  else .error (.unknownScheme address)

end Destination

end GelfCourier
