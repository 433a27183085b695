import GelfCourier.Concurrent.Lock
import GelfCourier.Datagram.Split
import GelfCourier.Fault

/-!
Sending datagrams through one socket. A message is packed and cut before its send asks for the lock;
the send then writes its datagrams one after another and stops at the first that is not written
whole. A close takes the socket away for good. How writes end is decided from outside.
-/

set_option autoImplicit false

namespace GelfCourier.Datagram

/-- How far a send or a close has come. -/
inductive Phase where
  /-- Waits for the lock, or was just given it. -/
  | asking
  /-- These datagrams are still to be written. -/
  | writing (left : List Bytes)
  | finished (result : Except TransportFault Unit)

inductive Purpose where
  | send (datagrams : List Bytes)
  | close
  deriving DecidableEq, Repr

structure Task where
  number : Nat
  purpose : Purpose
  phase : Phase := .asking

/-- How the write of a datagram ends. -/
inductive WriteEnd where
  | whole
  | short (written : Nat)
  | failed (fault : IoFault)
  deriving DecidableEq, Repr

structure Transport where
  /-- Whether the socket is there. -/
  isOpen : Bool := true
  lock : Lock := {}
  /-- Every datagram written whole, with the task that wrote it. -/
  log : List (Nat × Bytes) := []
  tasks : List Task := []

namespace Transport

def task? (transport : Transport) (number : Nat) : Option Task :=
  transport.tasks.find? fun task => task.number = number

def phase? (transport : Transport) (number : Nat) : Option Phase :=
  (transport.task? number).map (·.phase)

def setPhase (transport : Transport) (number : Nat) (phase : Phase) : Transport :=
  { transport with
    tasks := transport.tasks.map fun task =>
      if task.number = number then { task with phase } else task }

/-- A task is over and passes the lock on. -/
def finish (transport : Transport) (number : Nat) (result : Except TransportFault Unit) :
    Transport :=
  { transport.setPhase number (.finished result) with lock := transport.lock.release }

def begin (transport : Transport) (number : Nat) (purpose : Purpose) : Transport :=
  { transport with
    tasks := transport.tasks ++ [{ number, purpose }]
    lock := transport.lock.ask number }

/-- A payload that cannot be cut is refused before anything else. -/
def beginSend (transport : Transport) (number : Nat) (id : Id) (payload : Bytes) : Transport :=
  match split id payload with
  | .ok datagrams => transport.begin number (.send datagrams)
  | .error needed =>
    { transport with
      tasks := transport.tasks ++
        [⟨number, .send [], .finished (.error (.tooManyChunks needed))⟩] }

/-- A task that has just got the lock. -/
def enter (transport : Transport) (task : Task) : Transport :=
  match task.purpose with
  | .close => { transport with isOpen := false }.finish task.number (.ok ())
  | .send datagrams =>
    if transport.isOpen then transport.setPhase task.number (.writing datagrams)
    else transport.finish task.number (.error .closed)

/-- The next datagram of a send is written, or there is none left. -/
def wrote (transport : Transport) (number : Nat) (left : List Bytes) (ending : WriteEnd) :
    Transport :=
  match left, ending with
  | [], _ => transport.finish number (.ok ())
  | datagram :: rest, .whole =>
    { transport with log := transport.log ++ [(number, datagram)] }.setPhase number (.writing rest)
  | datagram :: _, .short written =>
    transport.finish number (.error (.shortWrite written datagram.length))
  | _ :: _, .failed fault => transport.finish number (.error (.io fault))

/-- What happens next, in one step. -/
inductive Step where
  | send (number : Nat) (id : Id) (payload : Bytes)
  | close (number : Nat)
  | enter (number : Nat)
  | wrote (number : Nat) (ending : WriteEnd)

def step? (transport : Transport) : Step → Option Transport
  | .send number id payload =>
    if (transport.task? number).isSome then none
    else some (transport.beginSend number id payload)
  | .close number =>
    if (transport.task? number).isSome then none else some (transport.begin number .close)
  | .enter number =>
    match transport.task? number with
    | some task =>
      match task.phase with
      | .asking => if transport.lock.isHeldBy number then some (transport.enter task) else none
      | _ => none
    | none => none
  | .wrote number ending =>
    match transport.task? number with
    | some task =>
      match task.phase with
      | .writing left => some (transport.wrote number left ending)
      | _ => none
    | none => none

end Transport

end GelfCourier.Datagram
