/-!
A lock that is passed on in the order in which tasks asked for it.
-/

set_option autoImplicit false

namespace GelfCourier

structure Lock where
  holder : Option Nat := none
  /-- The task that asked first in front. -/
  waiting : List Nat := []
  deriving DecidableEq, Repr

namespace Lock

/-- Takes the lock, or waits for it. -/
def ask (lock : Lock) (task : Nat) : Lock :=
  match lock.holder with
  | none => { lock with holder := some task }
  | some _ => { lock with waiting := lock.waiting ++ [task] }

/-- Passes the lock to the task that has waited longest. -/
def release (lock : Lock) : Lock :=
  match lock.waiting with
  | [] => {}
  | task :: waiting => { holder := some task, waiting }

def isHeldBy (lock : Lock) (task : Nat) : Bool :=
  lock.holder == some task

end Lock

end GelfCourier
