import GelfCourier.Concurrent.Queue

/-!
Background delivery: a queue of pending records and a fixed number of workers. A worker takes one
record at a time and sends it; a failed send is counted and not repeated. Callers may flush, which
waits until no record is pending, shut down, which closes the queue and waits for the workers that no
earlier shutdown took over, or do both and then close the transport.
-/

set_option autoImplicit false

namespace GelfCourier

/-- What a worker is doing. -/
inductive Worker (ρ : Type) where
  /-- About to ask the queue for a record. -/
  | idle
  /-- Its pop is under way. -/
  | asking
  | sending (record : ρ)
  /-- The queue was closed and empty. -/
  | stopped
  /-- A send panicked and took the worker with it. -/
  | broken
  deriving DecidableEq

namespace Worker

variable {ρ : Type}

def isIdle : Worker ρ → Bool
  | .idle => true
  | _ => false

def isAsking : Worker ρ → Bool
  | .asking => true
  | _ => false

def isSending : Worker ρ → Bool
  | .sending _ => true
  | _ => false

def isBroken : Worker ρ → Bool
  | .broken => true
  | _ => false

def hasExited : Worker ρ → Bool
  | .stopped => true
  | .broken => true
  | _ => false

end Worker

inductive CallKind where
  | flush
  | shutdown
  | flushAndClose
  deriving DecidableEq, Repr

/-- How far a call has come. -/
inductive CallPhase where
  /-- Looks whether records are pending, now and after each pause. -/
  | flushing
  /-- About to close the queue and to take over the workers that nobody waits for. -/
  | stopping
  /-- Waits for these workers, one after another. -/
  | joining (workers : List Nat)
  /-- About to close the transport. -/
  | closing
  | finished
  deriving DecidableEq, Repr

structure Call where
  number : Nat
  kind : CallKind
  phase : CallPhase
  deriving DecidableEq, Repr

structure Dispatch (ρ : Type) where
  queue : Queue ρ := {}
  workers : List (Worker ρ)
  /-- Workers that no shutdown has taken over. -/
  unclaimed : List Nat
  delivered : Nat := 0
  failed : Nat := 0
  calls : List Call := []

namespace Dispatch

variable {ρ : Type}

/-- At least one worker, all of them idle. -/
def start (workers : Nat) : Dispatch ρ :=
  { workers := List.replicate (max workers 1) .idle, unclaimed := List.range (max workers 1) }

def worker (dispatch : Dispatch ρ) (w : Nat) : Worker ρ :=
  dispatch.workers.getD w .stopped

def setWorker (dispatch : Dispatch ρ) (w : Nat) (worker : Worker ρ) : Dispatch ρ :=
  { dispatch with workers := dispatch.workers.set w worker }

/-- Both halves of a push. -/
def push (dispatch : Dispatch ρ) (record : ρ) : Dispatch ρ :=
  { dispatch with queue := dispatch.queue.push record }

/-- A worker asks for the next record. -/
def ask (dispatch : Dispatch ρ) (w : Nat) : Dispatch ρ :=
  { dispatch with queue := dispatch.queue.ask w }.setWorker w .asking

/-- A worker takes the record at the front, or stops where there is none. -/
def take (dispatch : Dispatch ρ) (w : Nat) : Dispatch ρ :=
  match dispatch.queue.take w with
  | (queue, some record) => { dispatch with queue }.setWorker w (.sending record)
  | (queue, none) => { dispatch with queue }.setWorker w .stopped

/-- A send is over and counted. -/
def settle (dispatch : Dispatch ρ) (w : Nat) (succeeded : Bool) : Dispatch ρ :=
  if succeeded then { dispatch with delivered := dispatch.delivered + 1 }.setWorker w .idle
  else { dispatch with failed := dispatch.failed + 1 }.setWorker w .idle

/-- A send panics. -/
def crash (dispatch : Dispatch ρ) (w : Nat) : Dispatch ρ :=
  dispatch.setWorker w .broken

def firstPhase : CallKind → CallPhase
  | .flush => .flushing
  | .shutdown => .stopping
  | .flushAndClose => .flushing

def afterFlush : CallKind → CallPhase
  | .flushAndClose => .stopping
  | _ => .finished

def afterJoin : CallKind → CallPhase
  | .flushAndClose => .closing
  | _ => .finished

def call? (dispatch : Dispatch ρ) (number : Nat) : Option Call :=
  dispatch.calls.find? fun call => call.number = number

def setPhase (dispatch : Dispatch ρ) (number : Nat) (phase : CallPhase) : Dispatch ρ :=
  { dispatch with
    calls := dispatch.calls.map fun call =>
      if call.number = number then { call with phase } else call }

def begin (dispatch : Dispatch ρ) (number : Nat) (kind : CallKind) : Dispatch ρ :=
  { dispatch with calls := dispatch.calls ++ [⟨number, kind, firstPhase kind⟩] }

/-- Whether a call can go on now. -/
def canAdvance (dispatch : Dispatch ρ) (call : Call) : Bool :=
  match call.phase with
  | .joining (w :: _) => (dispatch.worker w).hasExited
  | .finished => false
  | _ => true

/-- The next step of a call. -/
def advance (dispatch : Dispatch ρ) (call : Call) : Dispatch ρ :=
  match call.phase with
  | .flushing =>
    if dispatch.queue.isEmpty then dispatch.setPhase call.number (afterFlush call.kind)
    else dispatch
  | .stopping =>
    { dispatch with queue := dispatch.queue.close, unclaimed := [] }.setPhase call.number
      (.joining dispatch.unclaimed)
  | .joining [] => dispatch.setPhase call.number (afterJoin call.kind)
  | .joining (_ :: rest) => dispatch.setPhase call.number (.joining rest)
  | .closing => dispatch.setPhase call.number .finished
  | .finished => dispatch

/-- Gives up a call. -/
def cancel (dispatch : Dispatch ρ) (number : Nat) : Dispatch ρ :=
  { dispatch with calls := dispatch.calls.filter fun call => call.number ≠ number }

/-- What happens next, in one step. -/
inductive Step (ρ : Type) where
  | store (record : ρ)
  | signal
  | ask (worker : Nat)
  | take (worker : Nat)
  | settle (worker : Nat) (succeeded : Bool)
  | crash (worker : Nat)
  | begin (call : Nat) (kind : CallKind)
  | advance (call : Nat)
  | cancel (call : Nat)

def step? (dispatch : Dispatch ρ) : Step ρ → Option (Dispatch ρ)
  | .store record => some { dispatch with queue := dispatch.queue.store record }
  | .signal =>
    if dispatch.queue.unsignalled = 0 then none
    else some { dispatch with queue := dispatch.queue.signal }
  | .ask w => if (dispatch.worker w).isIdle then some (dispatch.ask w) else none
  | .take w =>
    if (dispatch.worker w).isAsking && dispatch.queue.isReady w then some (dispatch.take w)
    else none
  | .settle w succeeded =>
    if (dispatch.worker w).isSending then some (dispatch.settle w succeeded) else none
  | .crash w => if (dispatch.worker w).isSending then some (dispatch.crash w) else none
  | .begin number kind =>
    if (dispatch.call? number).isSome then none else some (dispatch.begin number kind)
  | .advance number =>
    match dispatch.call? number with
    | none => none
    | some call => if dispatch.canAdvance call then some (dispatch.advance call) else none
  | .cancel number =>
    if (dispatch.call? number).isSome then some (dispatch.cancel number) else none

end Dispatch

end GelfCourier
