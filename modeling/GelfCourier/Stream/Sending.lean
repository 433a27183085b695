import GelfCourier.Concurrent.Lock
import GelfCourier.Fault
import GelfCourier.Settings.Address
import GelfCourier.Stream.Frame

/-!
Sending frames over a connection that may break. Sends and closes take turns by one lock. A send whose
write fails drops the connection, dials again within its budget, and writes its frame once more on the
new connection. A close signals first, which ends a send that is dialling or pausing, and then takes
the connection away. What connections accept, and how dials end, is decided from outside.
-/

set_option autoImplicit false

namespace GelfCourier.Stream

/-- How far a send or a close has come. -/
inductive Phase where
  /-- Waits for the lock, or was just given it. -/
  | asking
  /-- Writes on the connection in the slot. -/
  | writing (connection : Nat)
  /-- Dials; attempts are counted from one. -/
  | dialing (attempt : Nat)
  /-- Waits after a failed dial. -/
  | pausing (attempt : Nat)
  /-- Writes on a connection of its own. -/
  | rewriting (connection : Nat)
  | finished (result : Except TransportFault Unit)

inductive Purpose where
  | send (message : Message)
  | close

structure Task where
  number : Nat
  purpose : Purpose
  phase : Phase := .asking

structure Transport where
  address : String
  policy : RedialPolicy := {}
  /-- The connection in use. -/
  slot : Option Nat := some 0
  closed : Bool := false
  lock : Lock := {}
  /-- What each connection has accepted. -/
  accepted : List Bytes := [[]]
  tasks : List Task := []

/-- How a write ends: the whole frame was accepted, or only a part of it. -/
inductive WriteEnd where
  | whole
  | broken (written : Nat) (fault : IoFault)
  deriving DecidableEq, Repr

/-- How a dial ends. -/
inductive DialEnd where
  | connected
  /-- The connection was made and could not be set up. -/
  | unusable (fault : IoFault)
  | refused (fault : IoFault)
  deriving DecidableEq, Repr

namespace Transport

def task? (transport : Transport) (number : Nat) : Option Task :=
  transport.tasks.find? fun task => task.number = number

def phase? (transport : Transport) (number : Nat) : Option Phase :=
  (transport.task? number).map (·.phase)

def setPhase (transport : Transport) (number : Nat) (phase : Phase) : Transport :=
  { transport with
    tasks := transport.tasks.map fun task =>
      if task.number = number then { task with phase } else task }

/-- A task is over and passes the lock on. -/
def finish (transport : Transport) (number : Nat) (result : Except TransportFault Unit) :
    Transport :=
  { transport.setPhase number (.finished result) with lock := transport.lock.release }

/-- A connection takes octets in. -/
def accept (transport : Transport) (connection : Nat) (octets : Bytes) : Transport :=
  { transport with accepted := transport.accepted.modify connection (· ++ octets) }

def begin (transport : Transport) (number : Nat) (purpose : Purpose) : Transport :=
  { transport with
    tasks := transport.tasks ++ [{ number, purpose }]
    lock := transport.lock.ask number }

/-- The first half of a close: no send goes on dialling from here on. -/
def signal (transport : Transport) : Transport :=
  { transport with closed := true }

/-- A task that has just got the lock. -/
def enter (transport : Transport) (task : Task) : Transport :=
  match task.purpose with
  | .close => { transport with slot := none }.finish task.number (.ok ())
  | .send _ =>
    if transport.closed then transport.finish task.number (.error .closed)
    else
      match transport.slot with
      | some connection => transport.setPhase task.number (.writing connection)
      | none => transport.setPhase task.number (.dialing 1)

/-- The attempts that the policy allows; none at all is read as one. -/
def isSpent (transport : Transport) (attempt : Nat) : Bool :=
  match transport.policy.maxAttempts with
  | none => false
  | some most => max most.toNat 1 ≤ attempt

/-- The end of a write of the given frame. -/
def wrote (transport : Transport) (task : Task) (frame : Bytes) (ending : WriteEnd) : Transport :=
  match task.phase, ending with
  | .writing connection, .whole =>
    (transport.accept connection frame).finish task.number (.ok ())
  | .writing connection, .broken written _ =>
    { transport.accept connection (frame.take written) with slot := none }.setPhase task.number
      (.dialing 1)
  | .rewriting connection, .whole =>
    { transport.accept connection frame with slot := some connection }.finish task.number (.ok ())
  | .rewriting connection, .broken written fault =>
    (transport.accept connection (frame.take written)).finish task.number (.error (.io fault))
  | _, _ => transport

/-- The end of a dial. -/
def dialled (transport : Transport) (task : Task) (ending : DialEnd) : Transport :=
  match task.phase, ending with
  | .dialing _, .connected =>
    { transport with accepted := transport.accepted ++ [[]] }.setPhase task.number
      (.rewriting transport.accepted.length)
  | .dialing _, .unusable fault =>
    { transport with accepted := transport.accepted ++ [[]] }.finish task.number (.error (.io fault))
  | .dialing attempt, .refused fault =>
    if transport.isSpent attempt then
      transport.finish task.number
        (.error (.redialExhausted transport.address attempt fault))
    else transport.setPhase task.number (.pausing attempt)
  | _, _ => transport

/-- What happens next, in one step. -/
inductive Step where
  | send (number : Nat) (message : Message)
  | signal
  | close (number : Nat)
  | enter (number : Nat)
  | wrote (number : Nat) (ending : WriteEnd)
  | dialled (number : Nat) (ending : DialEnd)
  /-- The pause after a failed dial is over. -/
  | rested (number : Nat)
  /-- A send that is dialling or pausing notices the close. -/
  | noticed (number : Nat)

def isPartial (frame : Bytes) : WriteEnd → Bool
  | .whole => true
  | .broken written _ => written < frame.length

def step? (transport : Transport) : Step → Option Transport
  | .send number message =>
    if (transport.task? number).isSome then none else some (transport.begin number (.send message))
  | .signal => some transport.signal
  | .close number =>
    if (transport.task? number).isSome || !transport.closed then none
    else some (transport.begin number .close)
  | .enter number =>
    match transport.task? number with
    | some task =>
      match task.phase with
      | .asking => if transport.lock.isHeldBy number then some (transport.enter task) else none
      | _ => none
    | none => none
  | .wrote number ending =>
    match transport.task? number with
    | some task =>
      match task.phase, task.purpose with
      | .writing _, .send message =>
        if isPartial (frame message) ending then some (transport.wrote task (frame message) ending)
        else none
      | .rewriting _, .send message =>
        if isPartial (frame message) ending then some (transport.wrote task (frame message) ending)
        else none
      | _, _ => none
    | none => none
  | .dialled number ending =>
    match transport.task? number with
    | some task =>
      match task.phase with
      | .dialing _ => some (transport.dialled task ending)
      | _ => none
    | none => none
  | .rested number =>
    match transport.task? number with
    | some task =>
      match task.phase with
      | .pausing attempt => some (transport.setPhase number (.dialing (attempt + 1)))
      | _ => none
    | none => none
  | .noticed number =>
    match transport.task? number with
    | some task =>
      match task.phase with
      | .dialing _ =>
        if transport.closed then some (transport.finish number (.error .closed)) else none
      | .pausing _ =>
        if transport.closed then some (transport.finish number (.error .closed)) else none
      | _ => none
    | none => none

end Transport

end GelfCourier.Stream
