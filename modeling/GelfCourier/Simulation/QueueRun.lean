import GelfCourier.Concurrent.Queue
import GelfCourier.Simulation.Agenda

/-!
A queue used by named pops, one operation after another. Each pop is a task of its own; after every
operation, or every batch of them, all tasks run until none can.
-/

set_option autoImplicit false

namespace GelfCourier.Simulation

inductive QueueOp (α : Type) where
  | push (item : α)
  | pop (name : String)
  | cancel (name : String)
  | tryPop
  | close

inductive QueueReply (α : Type) where
  | done
  | started
  | item (item : Option α)

/-- How far a pop has come. -/
inductive PopState where
  | fresh
  | asked
  | finished
  deriving DecidableEq

structure PopTask where
  number : Nat
  name : String
  state : PopState := .fresh
  /-- To be given up at its next turn. -/
  cancelled : Bool := false

structure QueueRun (α : Type) where
  queue : Queue α := {}
  agenda : Agenda Nat := {}
  tasks : List PopTask := []
  /-- Poppers numbered so far. -/
  count : Nat := 0
  /-- Pops that ended in this step, in order, with what they took. -/
  ended : List (String × Option α) := []

namespace QueueRun

variable {α : Type}

/-- The queue changes, and poppers it made ready get a turn. -/
def setQueue (run : QueueRun α) (queue : Queue α) : QueueRun α :=
  { run with queue, agenda := run.agenda.wakeAll (run.queue.newlyReady queue) }

def setState (run : QueueRun α) (number : Nat) (state : PopState) : QueueRun α :=
  { run with
    tasks := run.tasks.map fun task =>
      if task.number = number then { task with state } else task }

/-- A task takes the front if it may. -/
def takeIfReady (run : QueueRun α) (task : PopTask) : QueueRun α :=
  if run.queue.isReady task.number then
    let (queue, item) := run.queue.take task.number
    { (run.setQueue queue).setState task.number .finished with
      ended := run.ended ++ [(task.name, item)] }
  else run

/-- One turn of a pop. -/
def turn (run : QueueRun α) (number : Nat) : QueueRun α :=
  match run.tasks.find? fun task => task.number = number with
  | none => run
  | some task =>
    match task.state, task.cancelled with
    | .finished, _ => run
    | .fresh, true => run.setState number .finished
    | .asked, true => (run.setQueue (run.queue.cancel number)).setState number .finished
    | .fresh, false =>
      ({ run with queue := run.queue.ask number }.setState number .asked).takeIfReady task
    | .asked, false => run.takeIfReady task

def play : Play (QueueRun α) Nat where
  agenda run := run.agenda
  setAgenda run agenda := { run with agenda }
  turn := turn

def settle (run : QueueRun α) : QueueRun α :=
  play.settle pairLimit run

/-- The latest pop of a name. -/
def latest? (run : QueueRun α) (name : String) : Option PopTask :=
  run.tasks.reverse.find? fun task => task.name = name

def apply (run : QueueRun α) : QueueOp α → QueueRun α × QueueReply α
  | .push item => (run.setQueue (run.queue.push item), .done)
  | .pop name =>
    let task : PopTask := { number := run.count, name }
    ({ run with
        tasks := run.tasks ++ [task]
        count := run.count + 1
        agenda := run.agenda.wake run.count }, .started)
  | .cancel name =>
    match run.latest? name with
    | none => (run, .done)
    | some chosen =>
      ({ run with
          tasks := run.tasks.map fun task =>
            if task.number = chosen.number then { task with cancelled := true } else task
          agenda := run.agenda.wake chosen.number }, .done)
  | .tryPop =>
    let asked := run.queue.askNow run.count
    let run := { run with count := run.count + 1 }
    if asked.isReady (run.count - 1) then
      let (queue, item) := asked.take (run.count - 1)
      ({ run with queue }, .item item)
    else (run, .item none)
  | .close => (run.setQueue run.queue.close, .done)

/-- Operations back to back, with no task running in between. -/
def applyAll (run : QueueRun α) : List (QueueOp α) → QueueRun α × List (QueueReply α)
  | [] => (run, [])
  | op :: ops =>
    let (run, reply) := run.apply op
    let (run, replies) := run.applyAll ops
    (run, reply :: replies)

/-- A batch of operations, and then everything that follows from it. -/
def step (run : QueueRun α) (ops : List (QueueOp α)) : QueueRun α × List (QueueReply α) :=
  let (run, replies) := { run with ended := [] }.applyAll ops
  (run.settle, replies)

end QueueRun

end GelfCourier.Simulation
