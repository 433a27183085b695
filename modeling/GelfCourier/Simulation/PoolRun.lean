import GelfCourier.Concurrent.Pool
import GelfCourier.Diagnostic
import GelfCourier.Fault
import GelfCourier.Simulation.Agenda

/-!
A pool used by named gets under a clock. The factory numbers its objects from one; each creation
first waits, then fails while failures are ordered, and a failed one is tried again after a pause.
-/

set_option autoImplicit false

namespace GelfCourier.Simulation

inductive PoolOp where
  | get (name : String)
  | release (name : String)
  | discard (name : String)
  | drop (name : String)
  | cancel (name : String)
  | set (name : String) (object : Int)
  | fail (count : Nat)
  | delay (ms : Nat)

inductive PoolReply where
  | done
  | started
  | notHeld
  deriving DecidableEq

inductive GetState where
  | fresh
  | asked
  /-- The factory waits before its answer; the attempts begun are counted. -/
  | creating (attempt : Nat) (wait : Agenda.Wait)
  /-- A failed attempt is behind it. -/
  | pausing (attempt : Nat) (wait : Agenda.Wait)
  | finished
  deriving DecidableEq

structure GetTask where
  number : Nat
  name : String
  state : GetState := .fresh
  cancelled : Bool := false

structure PoolRun where
  pool : Pool Int
  agenda : Agenda Nat := {}
  retryMs : Nat := 1000
  tasks : List GetTask := []
  /-- Guards by the name under which they are kept. -/
  guards : List (String × Nat) := []
  /-- Objects made so far. -/
  made : Nat := 0
  failures : Nat := 0
  delayMs : Nat := 0
  /-- What gets of this step obtained, and when. -/
  got : List (String × Int × Nat) := []
  diagnostics : List Diagnostic := []

namespace PoolRun

def setPool (run : PoolRun) (pool : Pool Int) : PoolRun :=
  { run with pool, agenda := run.agenda.wakeAll (run.pool.idle.newlyReady pool.idle) }

def setState (run : PoolRun) (number : Nat) (state : GetState) : PoolRun :=
  { run with
    tasks := run.tasks.map fun task =>
      if task.number = number then { task with state } else task }

def guard? (run : PoolRun) (name : String) : Option Nat :=
  (run.guards.find? fun entry => entry.1 = name).map (·.2)

/-- Ends the guard kept under a name. -/
def endGuard (run : PoolRun) (name : String) (keep : Bool) : PoolRun :=
  match run.guard? name with
  | none => run
  | some guard =>
    { run.setPool (run.pool.giveBack guard keep).signal with
      guards := run.guards.filter fun entry => entry.1 ≠ name }

/-- A get is over: its guard is kept under its name, in place of an earlier one. -/
def obtain (run : PoolRun) (task : GetTask) : PoolRun :=
  match run.pool.object? task.number with
  | none => run
  | some object =>
    let run := (run.endGuard task.name false).setState task.number .finished
    { run with
      guards := run.guards ++ [(task.name, task.number)]
      got := run.got ++ [(task.name, object, run.agenda.now)] }

/-- The factory fails. -/
def fail (run : PoolRun) (attempt : Nat) : PoolRun :=
  { run with
    failures := run.failures - 1
    diagnostics := run.diagnostics ++ [{
      level := .warn
      text := "failed to create pooled object, retrying"
      details := [("attempt", toString attempt), ("error", TransportFault.closed.message)] }] }

/-- The factory makes an object. -/
def make (run : PoolRun) (task : GetTask) : PoolRun :=
  let object : Nat := run.made + 1
  { run with pool := run.pool.finish task.number object, made := object }.obtain task

/-- Attempts to make the object, until one succeeds or the get has to wait. -/
def attempts (run : PoolRun) (task : GetTask) (attempt : Nat) (waited : Bool) (budget : Nat) :
    PoolRun :=
  if !waited && run.delayMs != 0 then
    match _found : run.agenda.pause task.number run.delayMs budget with
    | (agenda, .under wait) =>
      { run with agenda }.setState task.number (.creating attempt wait)
    | (agenda, .over left) => attempts { run with agenda } task attempt true left
  else if run.failures = 0 then run.make task
  else
    let run := run.fail attempt
    match _found : run.agenda.pause task.number run.retryMs budget with
    | (agenda, .under wait) =>
      { run with agenda }.setState task.number (.pausing attempt wait)
    | (agenda, .over left) => attempts { run with agenda } task (attempt + 1) false left
termination_by budget
decreasing_by all_goals exact Agenda.lt_of_pause_over (by assumption)

/-- Goes on with a get that may have been granted a slot. -/
def proceed (run : PoolRun) (task : GetTask) : PoolRun :=
  let ready := run.pool.isReady task.number
  let run := if ready then { run with pool := run.pool.take task.number } else run
  if (run.pool.object? task.number).isSome then run.obtain task
  else if run.pool.isMaking task.number then
    run.attempts task 1 false (if ready then Agenda.budget - 1 else Agenda.budget)
  else run.setState task.number .asked

def turn (run : PoolRun) (number : Nat) : PoolRun :=
  match run.tasks.find? fun task => task.number = number with
  | none => run
  | some task =>
    match task.state, task.cancelled with
    | .finished, _ => run
    | .fresh, true => run.setState number .finished
    | .fresh, false => { run with pool := run.pool.ask number }.proceed task
    | .asked, false => run.proceed task
    | .creating attempt wait, false =>
      match run.agenda.goOn number wait with
      | (agenda, .under wait) => { run with agenda }.setState number (.creating attempt wait)
      | (agenda, .over left) => { run with agenda }.attempts task attempt true left
    | .pausing attempt wait, false =>
      match run.agenda.goOn number wait with
      | (agenda, .under wait) => { run with agenda }.setState number (.pausing attempt wait)
      | (agenda, .over left) => { run with agenda }.attempts task (attempt + 1) false left
    | _, true =>
      let pool := run.pool.cancel number
      let pool := if run.pool.isMaking number then pool.signal else pool
      let run := (run.setPool pool).setState number .finished
      { run with agenda := run.agenda.unset number }

def play : Play PoolRun Nat where
  agenda run := run.agenda
  setAgenda run agenda := { run with agenda }
  turn := turn

def settle (run : PoolRun) : PoolRun :=
  play.settle pairLimit run

def apply (run : PoolRun) : PoolOp → PoolRun × PoolReply
  | .get name =>
    let number := run.tasks.length
    ({ run with
        tasks := run.tasks ++ [{ number, name }]
        agenda := run.agenda.wake number }, .started)
  | .release name =>
    if (run.guard? name).isSome then (run.endGuard name true, .done) else (run, .notHeld)
  | .discard name =>
    if (run.guard? name).isSome then (run.endGuard name false, .done) else (run, .notHeld)
  | .drop name => (run.endGuard name false, .done)
  | .cancel name =>
    match run.tasks.reverse.find? fun task => task.name = name with
    | none => (run, .done)
    | some chosen =>
      ({ run with
          tasks := run.tasks.map fun task =>
            if task.number = chosen.number then { task with cancelled := true } else task
          agenda := run.agenda.wake chosen.number }, .done)
  | .set name object =>
    match run.guard? name with
    | none => (run, .notHeld)
    | some guard => ({ run with pool := run.pool.set guard object }, .done)
  | .fail failures => ({ run with failures }, .done)
  | .delay delayMs => ({ run with delayMs }, .done)

def applyAll (run : PoolRun) : List PoolOp → PoolRun × List PoolReply
  | [] => (run, [])
  | op :: ops =>
    let (run, reply) := run.apply op
    let (run, replies) := run.applyAll ops
    (run, reply :: replies)

/-- Begins a step with nothing to report. -/
def fresh (run : PoolRun) : PoolRun :=
  { run with got := [], diagnostics := [] }

def step (run : PoolRun) (ops : List PoolOp) : PoolRun × List PoolReply :=
  let (run, replies) := run.fresh.applyAll ops
  (run.settle, replies)

/-- Lets milliseconds pass, each with everything that follows from it. -/
def advance (run : PoolRun) : (ms : Nat) → PoolRun
  | 0 => run
  | ms + 1 => advance { run with agenda := run.agenda.tick }.settle ms

end PoolRun

end GelfCourier.Simulation
