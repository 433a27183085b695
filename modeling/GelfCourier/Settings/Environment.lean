import GelfCourier.Json.Tree
import GelfCourier.Settings.Address
import GelfCourier.Text.Blank
import GelfCourier.Text.WholeNumber

/-!
Settings from environment variables. A variable whose octets are not valid UTF-8 counts as unset.
Numbers are trimmed of blanks before they are read.
-/

set_option autoImplicit false

namespace GelfCourier

structure Environment where
  entries : Fields Bytes

namespace Environment

def get? (environment : Environment) (name : String) : Option String :=
  (environment.entries.get? name).bind Bytes.toString?

def getD (environment : Environment) (name fallback : String) : String :=
  (environment.get? name).getD fallback

def addressVariable : String := "GELF_ADDRESS"
def brokerAddressVariable : String := "GELF_REDIS_ADDR"
def brokerUsernameVariable : String := "GELF_REDIS_USERNAME"
def brokerPasswordVariable : String := "GELF_REDIS_PASSWORD"
def brokerDatabaseVariable : String := "GELF_REDIS_DB"
def brokerQueueVariable : String := "GELF_REDIS_QUEUE"
def synchronousVariable : String := "GELF_SYNCHRONOUS"
def concurrencyVariable : String := "GELF_CONCURRENCY"
def hostVariable : String := "GELF_HOST"
def hostnameVariable : String := "HOSTNAME"

/-- The number that a variable holds, or the fallback where it is unset. -/
def number {α : Type} (environment : Environment) (name : String) (fallback : α)
    (parse : List Char → Option α) : Except SettingsFault α :=
  match environment.get? name with
  | none => .ok fallback
  | some value =>
    match parse (Text.trim value.toList) with
    | some n => .ok n
    | none => .error (.invalidNumber name value)

def brokerSettings (environment : Environment) : Except SettingsFault BrokerSettings := do
  let defaults : BrokerSettings := {}
  let database ← environment.number brokerDatabaseVariable defaults.database fun cs =>
    (Text.integerWithin? (-9223372036854775808) 9223372036854775807 cs).map Int64.ofInt
  return {
    defaults with
    address := environment.getD brokerAddressVariable defaults.address
    username := environment.get? brokerUsernameVariable
    password := environment.get? brokerPasswordVariable
    database
    queue := environment.getD brokerQueueVariable defaults.queue }

/-- The broker where its address is set, otherwise the address of a collector. -/
def destination (environment : Environment) : Except SettingsFault Destination :=
  if (environment.get? brokerAddressVariable).isSome then
    (environment.brokerSettings).map .durable
  else
    match environment.get? addressVariable with
    | none => .error (.missingAddress addressVariable)
    | some address => Destination.parse address

end Environment

/-- How log calls are handed over. -/
structure HookSettings where
  /-- Every call waits for the transport, and there are no workers. -/
  synchronous : Bool := false
  workers : Nat := 100
  extra : Fields Json.Value := .empty
  host : Option String := none
  /-- How often a flush looks at the queue. -/
  pollMs : Nat := 1000

namespace Environment

def isYes (value : String) : Bool :=
  ["1", "true", "yes"].contains (String.ofList ((Text.trim value.toList).map Char.toLower))

def hookSettings (environment : Environment) : Except SettingsFault HookSettings := do
  let defaults : HookSettings := {}
  let workers ← environment.number concurrencyVariable defaults.workers
    (Text.naturalBelow? 18446744073709551616)
  return {
    defaults with
    synchronous := isYes (environment.getD synchronousVariable "false")
    workers
    host := environment.get? hostVariable }

/-- The host's own name: from its variable, else from the machine, never empty. -/
def hostname (environment : Environment) (machine : Option String) : String :=
  match ((environment.get? hostnameVariable).or machine).map Text.trimString with
  | some "" => "localhost"
  | some name => name
  | none => "localhost"

end Environment

end GelfCourier
