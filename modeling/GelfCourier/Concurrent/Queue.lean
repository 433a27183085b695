/-!
An unbounded queue whose removals wait for permits. A push stores its item and then adds one permit;
a pop asks for a permit and then takes the front item. Permits go to waiting poppers in the order in
which they asked. Once the queue is closed nobody waits: every popper takes what is at the front, if
anything is. Each operation here is one atomic step, and poppers are known by number.
-/

set_option autoImplicit false

namespace GelfCourier

structure Queue (α : Type) where
  /-- Front first. -/
  items : List α := []
  /-- Pushes that have stored their item and not yet added their permit. -/
  unsignalled : Nat := 0
  permits : Nat := 0
  /-- Poppers without a permit, the one that asked first in front. -/
  waiting : List Nat := []
  /-- Poppers that hold a permit and have not taken their item. -/
  granted : List Nat := []
  /-- Poppers that were turned away by the close and have not looked at the front. -/
  refused : List Nat := []
  closed : Bool := false

namespace Queue

variable {α : Type}

/-- The first half of a push. -/
def store (queue : Queue α) (item : α) : Queue α :=
  { queue with items := queue.items ++ [item], unsignalled := queue.unsignalled + 1 }

/-- Gives one permit to the popper that has waited longest, or keeps it. -/
def addPermit (queue : Queue α) : Queue α :=
  match queue.waiting with
  | [] => { queue with permits := queue.permits + 1 }
  | popper :: waiting => { queue with waiting, granted := queue.granted ++ [popper] }

/-- The second half of a push. -/
def signal (queue : Queue α) : Queue α :=
  addPermit { queue with unsignalled := queue.unsignalled - 1 }

/-- Both halves of a push. -/
def push (queue : Queue α) (item : α) : Queue α :=
  (queue.store item).signal

/-- A pop asks for a permit, and waits where there is none. -/
def ask (queue : Queue α) (popper : Nat) : Queue α :=
  if queue.closed then { queue with refused := queue.refused ++ [popper] }
  else if queue.permits = 0 then { queue with waiting := queue.waiting ++ [popper] }
  else { queue with permits := queue.permits - 1, granted := queue.granted ++ [popper] }

/-- A pop that does not wait asks for a permit. -/
def askNow (queue : Queue α) (popper : Nat) : Queue α :=
  if queue.closed ∨ queue.permits ≠ 0 then queue.ask popper else queue

/-- Whether a popper may take the front now. -/
def isReady (queue : Queue α) (popper : Nat) : Bool :=
  queue.granted.contains popper || queue.refused.contains popper

/-- A popper that is ready takes the front item, if there is one. -/
def take (queue : Queue α) (popper : Nat) : Queue α × Option α :=
  ({ queue with
      items := queue.items.tail
      granted := queue.granted.erase popper
      refused := if queue.granted.contains popper then queue.refused
        else queue.refused.erase popper },
    queue.items.head?)

/-- Gives up a pop. A permit it holds passes on. -/
def cancel (queue : Queue α) (popper : Nat) : Queue α :=
  if queue.granted.contains popper then
    addPermit { queue with granted := queue.granted.erase popper }
  else
    { queue with
      waiting := queue.waiting.erase popper
      refused := queue.refused.erase popper }

def close (queue : Queue α) : Queue α :=
  { queue with closed := true, waiting := [], refused := queue.refused ++ queue.waiting }

def isEmpty (queue : Queue α) : Bool := queue.items.isEmpty

def length (queue : Queue α) : Nat := queue.items.length

/-- Poppers that an operation made ready, in the order in which it did. -/
def newlyReady (before after : Queue α) : List Nat :=
  after.granted.filter (fun popper => !before.isReady popper) ++
    after.refused.filter (fun popper => !before.isReady popper)

/-- What a task does to a queue in one step. -/
inductive Step (α : Type) where
  | store (item : α)
  | signal
  | ask (popper : Nat)
  | askNow (popper : Nat)
  | take (popper : Nat)
  | cancel (popper : Nat)
  | close

/-- Whether a popper number is in use. -/
def isKnown (queue : Queue α) (popper : Nat) : Bool :=
  queue.waiting.contains popper || queue.isReady popper

/-- The queue after a step, where the step is possible, and what a pop that ended with it took. -/
def step? (queue : Queue α) : Step α → Option (Queue α × Option (Nat × Option α))
  | .store item => some (queue.store item, none)
  | .signal => if queue.unsignalled = 0 then none else some (queue.signal, none)
  | .ask popper => if queue.isKnown popper then none else some (queue.ask popper, none)
  | .askNow popper =>
    if queue.isKnown popper then none
    else
      let after := queue.askNow popper
      some (after, if after.isReady popper then none else some (popper, none))
  | .take popper =>
    if queue.isReady popper then
      let (after, item) := queue.take popper
      some (after, some (popper, item))
    else none
  | .cancel popper => if queue.isKnown popper then some (queue.cancel popper, none) else none
  | .close => some (queue.close, none)

end Queue

end GelfCourier
