import GelfCourier.Message.Severity

/-!
What the library itself reports while it runs: a level, a text, and named details.
-/

set_option autoImplicit false

namespace GelfCourier

structure Diagnostic where
  level : Level
  text : String
  /-- In ascending order of the names. -/
  details : List (String × String) := []
  deriving DecidableEq, Repr

namespace Diagnostic

def levelWord : Level → String
  | .panic => "PANIC"
  | .fatal => "FATAL"
  | .error => "ERROR"
  | .warn => "WARN"
  | .info => "INFO"
  | .debug => "DEBUG"
  | .trace => "TRACE"

/-- The level and the text alone. -/
def heading (diagnostic : Diagnostic) : String :=
  levelWord diagnostic.level ++ " " ++ diagnostic.text

def line (diagnostic : Diagnostic) : String :=
  diagnostic.details.foldl (fun line detail => line ++ " " ++ detail.1 ++ "=" ++ detail.2)
    diagnostic.heading

end Diagnostic

end GelfCourier
