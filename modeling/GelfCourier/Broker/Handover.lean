import GelfCourier.Concurrent.Pool
import GelfCourier.Fault

/-!
Handing messages over through a list that a broker keeps. A send pushes its payload through a pooled
connection, again and again until the broker acknowledges it or the transport is closed. A consumer
pops from a connection of its own, and pushes a payload back whose handler fails; after a close it
tries that once more, on a fresh connection, because the payload exists nowhere else. How dials and
commands end is decided from outside. A command that fails has changed nothing.
-/

set_option autoImplicit false

namespace GelfCourier.Broker

inductive Purpose where
  | send (payload : Bytes)
  | consume
  deriving DecidableEq, Repr

/-- How far a push has come. -/
inductive PushPhase where
  /-- About to look whether the transport is closed. -/
  | looking
  /-- Waits for a pooled connection, or makes one. -/
  | claiming
  | pushing
  /-- Waits after a failed push. -/
  | pausing
  deriving DecidableEq, Repr

/-- How far a send or a consumer has come. -/
inductive Phase where
  /-- A push of this payload, by a send or to give it back. -/
  | push (payload : Bytes) (phase : PushPhase)
  /-- About to look whether the transport is closed. -/
  | looking
  /-- Opens its connection where it has none, and pops. -/
  | popping
  | handling (payload : Bytes)
  /-- Dials to give the payload back after a close. -/
  | redialing (payload : Bytes)
  /-- Pushes on the connection just dialled. -/
  | returning (payload : Bytes)
  | resting
  | finished (result : Except TransportFault Unit)

/-- What became of a payload that was popped. -/
inductive Fate where
  | handled
  /-- Empty, or not a message. -/
  | dropped
  /-- Pushed back, as the broker acknowledged. -/
  | returned
  /-- Could not be pushed back after a close. -/
  | lost
  deriving DecidableEq, Repr

structure Task where
  number : Nat
  purpose : Purpose
  phase : Phase
  /-- The connection that a consumer pops from. -/
  connection : Option Nat := none
  /-- Payloads popped so far, in order. -/
  popped : List Bytes := []
  /-- Payloads that the task is done with, in order. -/
  settled : List (Bytes × Fate) := []

structure Transport where
  pool : Pool Nat
  closed : Bool := false
  /-- The broker's list, front first. -/
  list : List Bytes := []
  /-- Every push that was acknowledged, with its task. -/
  appended : List (Nat × Bytes) := []
  tasks : List Task := []

/-- How a dial ends. -/
inductive DialEnd where
  | connected (connection : Nat)
  | refused
  deriving DecidableEq, Repr

/-- How a pop ends. -/
inductive PopEnd where
  | element
  /-- The time allowed passed without an element. -/
  | nothing
  | failed
  deriving DecidableEq, Repr

namespace Task

/-- A task that has just begun. -/
def ofPurpose (number : Nat) : Purpose → Task
  | .send payload => { number, purpose := .send payload, phase := .push payload .looking }
  | .consume => { number, purpose := .consume, phase := .looking }

def settle (task : Task) (payload : Bytes) (fate : Fate) : Task :=
  { task with settled := task.settled ++ [(payload, fate)] }

end Task

namespace Transport

def ofSettings (settings : BrokerSettings) (list : List Bytes) : Transport :=
  { pool := Pool.ofCapacity settings.poolSize, list }

def task? (transport : Transport) (number : Nat) : Option Task :=
  transport.tasks.find? fun task => task.number = number

def phase? (transport : Transport) (number : Nat) : Option Phase :=
  (transport.task? number).map (·.phase)

/-- Puts a task in the place of the one with its number. -/
def put (transport : Transport) (task : Task) : Transport :=
  { transport with
    tasks := transport.tasks.map fun old => if old.number = task.number then task else old }

def begin (transport : Transport) (number : Nat) (purpose : Purpose) : Transport :=
  { transport with tasks := transport.tasks ++ [Task.ofPurpose number purpose] }

def close (transport : Transport) : Transport :=
  { transport with closed := true }

/-- Looks whether the transport is closed, before a push or a pop. -/
def look (transport : Transport) (task : Task) : Transport :=
  match task.phase with
  | .push payload .looking =>
    if transport.closed then
      match task.purpose with
      | .send _ => transport.put { task with phase := .finished (.error .closed) }
      | .consume => transport.put { task with phase := .redialing payload }
    else
      { transport with pool := transport.pool.ask task.number }.put
        { task with phase := .push payload .claiming }
  | .looking =>
    if transport.closed then transport.put { task with phase := .finished (.ok ()) }
    else transport.put { task with phase := .popping }
  | _ => transport

/-- A get takes the slot it was granted. -/
def take (transport : Transport) (task : Task) (payload : Bytes) : Transport :=
  let pool := transport.pool.take task.number
  if (pool.object? task.number).isSome then
    { transport with pool }.put { task with phase := .push payload .pushing }
  else { transport with pool }

/-- A payload could not be given back, and the consumer ends with the fault. -/
def lose (transport : Transport) (task : Task) (payload : Bytes) : Transport :=
  transport.put { task.settle payload .lost with phase := .finished (.error .broker) }

/-- The end of a dial. A pool slot is dialled for until that succeeds. -/
def dialled (transport : Transport) (task : Task) (ending : DialEnd) : Transport :=
  match task.phase, ending with
  | .push payload .claiming, .connected connection =>
    { transport with pool := transport.pool.finish task.number connection }.put
      { task with phase := .push payload .pushing }
  | .popping, .connected connection => transport.put { task with connection := some connection }
  | .popping, .refused => transport.put { task with phase := .resting }
  | .redialing payload, .connected _ => transport.put { task with phase := .returning payload }
  | .redialing payload, .refused => transport.lose task payload
  | _, _ => transport

/-- The broker takes a payload in at the end of its list. -/
def append (transport : Transport) (number : Nat) (payload : Bytes) : Transport :=
  { transport with
    list := transport.list ++ [payload]
    appended := transport.appended ++ [(number, payload)] }

/-- Ends the guard of a task's connection, which goes back or leaves its slot vacant. -/
def giveBack (transport : Transport) (number : Nat) (keep : Bool) : Transport :=
  { transport with pool := (transport.pool.giveBack number keep).signal }

/-- The end of a push. -/
def pushed (transport : Transport) (task : Task) (acknowledged : Bool) : Transport :=
  match task.phase, acknowledged with
  | .push payload .pushing, true =>
    let transport := (transport.append task.number payload).giveBack task.number true
    match task.purpose with
    | .send _ => transport.put { task with phase := .finished (.ok ()) }
    | .consume => transport.put { task.settle payload .returned with phase := .resting }
  | .push payload .pushing, false =>
    (transport.giveBack task.number false).put { task with phase := .push payload .pausing }
  | .returning payload, true =>
    (transport.append task.number payload).put
      { task.settle payload .returned with phase := .resting }
  | .returning payload, false => transport.lose task payload
  | _, _ => transport

/-- A consumer has a payload, which it handles or drops. -/
def receive (transport : Transport) (task : Task) (payload : Bytes) : Transport :=
  let task := { task with popped := task.popped ++ [payload] }
  let dropped := transport.put { task.settle payload .dropped with phase := .looking }
  if payload.isEmpty then dropped
  else
    match Payload.read payload with
    | .error _ => dropped
    | .ok _ => transport.put { task with phase := .handling payload }

/-- The end of a pop. -/
def popEnded (transport : Transport) (task : Task) (ending : PopEnd) : Transport :=
  match ending, transport.list with
  | .element, payload :: list => { transport with list }.receive task payload
  | .element, [] => transport
  | .nothing, _ => transport.put { task with phase := .looking }
  | .failed, _ => transport.put { task with phase := .resting, connection := none }

/-- The handler is done with a payload. -/
def handled (transport : Transport) (task : Task) (payload : Bytes) (succeeded : Bool) :
    Transport :=
  if succeeded then transport.put { task.settle payload .handled with phase := .looking }
  else transport.put { task with phase := .push payload .looking }

/-- A pause is over. -/
def rested (transport : Transport) (task : Task) : Transport :=
  match task.phase with
  | .push payload .pausing => transport.put { task with phase := .push payload .looking }
  | .resting => transport.put { task with phase := .looking }
  | _ => transport

/-- What happens next, in one step. -/
inductive Step where
  | send (number : Nat) (payload : Bytes)
  | consume (number : Nat)
  | close
  /-- Somebody else appends to the list. -/
  | deposit (payload : Bytes)
  /-- Somebody else takes the front of the list. -/
  | withdraw
  | look (number : Nat)
  | take (number : Nat)
  | dialled (number : Nat) (ending : DialEnd)
  | pushed (number : Nat) (acknowledged : Bool)
  | popEnded (number : Nat) (ending : PopEnd)
  | handled (number : Nat) (succeeded : Bool)
  | rested (number : Nat)
  deriving DecidableEq, Repr

/-- Whether a task is dialling. -/
def isDialing (transport : Transport) (task : Task) : Bool :=
  match task.phase with
  | .push _ .claiming => transport.pool.isMaking task.number
  | .popping => task.connection.isNone
  | .redialing _ => true
  | _ => false

def stepOf? (transport : Transport) (task : Task) : Step → Option Transport
  | .look _ =>
    match task.phase with
    | .push _ .looking => some (transport.look task)
    | .looking => some (transport.look task)
    | _ => none
  | .take _ =>
    match task.phase with
    | .push payload .claiming =>
      if transport.pool.isReady task.number then some (transport.take task payload) else none
    | _ => none
  | .dialled _ ending =>
    if transport.isDialing task then some (transport.dialled task ending) else none
  | .pushed _ acknowledged =>
    match task.phase with
    | .push _ .pushing => some (transport.pushed task acknowledged)
    | .returning _ => some (transport.pushed task acknowledged)
    | _ => none
  | .popEnded _ ending =>
    match task.phase with
    | .popping =>
      if task.connection.isNone || (ending == .element && transport.list.isEmpty) then none
      else some (transport.popEnded task ending)
    | _ => none
  | .handled _ succeeded =>
    match task.phase with
    | .handling payload => some (transport.handled task payload succeeded)
    | _ => none
  | .rested _ =>
    match task.phase with
    | .push _ .pausing => some (transport.rested task)
    | .resting => some (transport.rested task)
    | _ => none
  | _ => none

/-- The task that a step is about, where it is about one that has begun. -/
def Step.task? : Step → Option Nat
  | .look number => some number
  | .take number => some number
  | .dialled number _ => some number
  | .pushed number _ => some number
  | .popEnded number _ => some number
  | .handled number _ => some number
  | .rested number => some number
  | _ => none

def step? (transport : Transport) (step : Step) : Option Transport :=
  match step with
  | .send number payload =>
    if (transport.task? number).isSome then none
    else some (transport.begin number (.send payload))
  | .consume number =>
    if (transport.task? number).isSome then none else some (transport.begin number .consume)
  | .close => some transport.close
  | .deposit payload => some { transport with list := transport.list ++ [payload] }
  | .withdraw => some { transport with list := transport.list.tail }
  | _ => (step.task?.bind transport.task?).bind fun task => transport.stepOf? task step

end Transport

end GelfCourier.Broker
