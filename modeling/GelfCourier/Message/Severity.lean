/-!
Severities of the wire, from 0 for the most severe to 7, and the levels of log calls that map onto
them.
-/

set_option autoImplicit false

namespace GelfCourier

inductive Severity where
  | emergency
  | alert
  | critical
  | error
  | warning
  | notice
  | informational
  | debug
  deriving DecidableEq, Repr

namespace Severity

def code : Severity → Int32
  | .emergency => 0
  | .alert => 1
  | .critical => 2
  | .error => 3
  | .warning => 4
  | .notice => 5
  | .informational => 6
  | .debug => 7

def all : List Severity :=
  [.emergency, .alert, .critical, .error, .warning, .notice, .informational, .debug]

def ofCode? (code : Int32) : Option Severity :=
  all.find? fun severity => severity.code = code

def name : Severity → String
  | .emergency => "Emergency"
  | .alert => "Alert"
  | .critical => "Critical"
  | .error => "Error"
  | .warning => "Warning"
  | .notice => "Notice"
  | .informational => "Informational"
  | .debug => "Debug"

@[simp] theorem ofCode?_code (severity : Severity) : ofCode? severity.code = some severity := by
  cases severity <;> decide

end Severity

/-- The level of a log call, from the most severe to the least. -/
inductive Level where
  | panic
  | fatal
  | error
  | warn
  | info
  | debug
  | trace
  deriving DecidableEq, Repr

namespace Level

/-- The position from the most severe level down. -/
def rank : Level → Nat
  | .panic => 0
  | .fatal => 1
  | .error => 2
  | .warn => 3
  | .info => 4
  | .debug => 5
  | .trace => 6

/-- No level maps to `emergency` or `notice`; the two least severe levels share a severity. -/
def severity : Level → Severity
  | .panic => .alert
  | .fatal => .critical
  | .error => .error
  | .warn => .warning
  | .info => .informational
  | .debug => .debug
  | .trace => .debug

end Level

end GelfCourier
