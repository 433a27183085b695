import GelfCourier.Event.Printed
import GelfCourier.Hook

/-!
An observer of events that queues them on a hook. Events less severe than its level are left out, and
so are those whose target begins with the name of the shipping library, which keeps its diagnostics
from being shipped in turn. Three counters tell what became of the events seen.
-/

set_option autoImplicit false

namespace GelfCourier

/-- How the targets of the library's own events begin. -/
def ownTarget : String := "tracing_gelf_sink"

structure Observer where
  hook : Hook
  /-- The least severe level that is shipped. -/
  minLevel : Level := .debug
  total : Nat := 0
  enqueued : Nat := 0
  dropped : Nat := 0

namespace Observer

def isOwn (event : Event) : Bool :=
  ownTarget.toList.isPrefixOf event.target.toList

/-- Whether an event passes the filter. -/
def admits (observer : Observer) (event : Event) : Bool :=
  event.level.rank ≤ observer.minLevel.rank && !isOwn event

def observe (observer : Observer) (event : Event) (time : Instant) : Observer :=
  let observer := { observer with total := observer.total + 1 }
  if observer.admits event then
    match observer.hook.enqueue (event.toRecord time) with
    | .ok hook => { observer with hook, enqueued := observer.enqueued + 1 }
    | .error _ => { observer with dropped := observer.dropped + 1 }
  else observer

end Observer

/-- How events are observed in a whole program. -/
structure ObserverSettings where
  minLevel : Level := .debug
  /-- Events are also printed where the program runs. -/
  printsEvents : Bool := true
  deriving DecidableEq, Repr

/-- The observer of a whole program: none until one is installed, and then that one for good. -/
structure Installation where
  settings : Option ObserverSettings := none
  deriving DecidableEq, Repr

namespace Installation

/-- Installs an observer, and tells whether it was the first. -/
def install (installation : Installation) (settings : ObserverSettings) : Installation × Bool :=
  match installation.settings with
  | none => (⟨some settings⟩, true)
  | some _ => (installation, false)

/-- Whether the library's name begins somewhere in a text. -/
def namesLibraryFrom : List Char → Bool
  | [] => false
  | c :: rest => ownTarget.toList.isPrefixOf (c :: rest) || namesLibraryFrom rest

def namesLibrary (text : String) : Bool :=
  namesLibraryFrom text.toList

/-- The printed lines of an event that do not name the library. -/
def printedLines (installation : Installation) (event : Event) : List String :=
  match installation.settings with
  | none => []
  | some settings =>
    if settings.printsEvents then event.printedLines.filter fun line => !namesLibrary line else []

end Installation

end GelfCourier
