import GelfCourier.Event.Observer
import GelfCourier.Simulation.HookRun

/-!
Events seen by an observer while no worker runs, and then a flush and close of its hook. A whole
program may ask for an observer several times; the first call decides.
-/

set_option autoImplicit false

namespace GelfCourier.Simulation

structure ObserverReport where
  /-- Events seen, queued and dropped, after each event. -/
  counters : List (Nat × Nat × Nat)
  /-- Records queued before the flush. -/
  pending : Nat
  sent : List Message

/-- What became of the calls that ask for an observer, and of the events after them. -/
structure InstallReport where
  /-- For each call, whether it was the first. -/
  first : List Bool
  sent : List Message
  /-- Lines printed for events that do not name the library. -/
  printed : Nat

namespace ObserverRun

/-- How many timers may ring before a flush is given up. -/
def ringLimit : Nat := 10000000

/-- The observer after each event. -/
def states (observer : Observer) : List Event → List Observer
  | [] => []
  | event :: events =>
    let observer := observer.observe event {}
    observer :: states observer events

/-- What is sent while a hook whose workers have not begun yet is flushed and closed. -/
def flushed (hook : Hook) : List Message :=
  (((HookRun.ofHook hook).step [.flushAndClose "close"]).1.exhaust ringLimit).sent

/-- Events are seen before the first worker begins. -/
def report (observer : Observer) (events : List Event) : ObserverReport :=
  let states := states observer events
  let last := states.getLast?.getD observer
  { counters := states.map fun state => (state.total, state.enqueued, state.dropped)
    pending := last.hook.pending
    sent := flushed last.hook }

/-- Calls one after another, and whether each was the first. -/
def installAll (installation : Installation) :
    List ObserverSettings → Installation × List Bool
  | [] => (installation, [])
  | settings :: calls =>
    let (installation, first) := installation.install settings
    let (installation, firsts) := installAll installation calls
    (installation, first :: firsts)

/-- Events before any call are seen by nobody. -/
def installReport (hook : Hook) (calls : List ObserverSettings) (events : List Event) :
    InstallReport :=
  let (installation, first) := installAll {} calls
  { first
    sent := installation.settings.elim [] fun settings =>
      (report { hook, minLevel := settings.minLevel } events).sent
    printed := (events.flatMap installation.printedLines).length }

end ObserverRun

end GelfCourier.Simulation
