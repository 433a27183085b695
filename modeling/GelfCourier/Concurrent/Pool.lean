import GelfCourier.Concurrent.Queue

/-!
A pool of at most `capacity` objects. A slot is claimed when it is first needed; afterwards it is in
the idle queue, with its object or vacant, or it belongs to a get that is making an object, or to a
guard that holds one. A released guard brings its object back; any other end of a guard, and a get
given up while it makes an object, leaves the slot vacant for the next taker.
-/

set_option autoImplicit false

namespace GelfCourier

structure Pool (α : Type) where
  capacity : Nat
  /-- Slots claimed so far. -/
  created : Nat := 0
  /-- Slots that came back, each with its object or vacant. -/
  idle : Queue (Option α) := {}
  /-- Gets that own a slot and are making its object. -/
  making : List Nat := []
  /-- Guards, each with the object it holds. -/
  held : List (Nat × α) := []

namespace Pool

variable {α : Type}

/-- A pool of one object at least. -/
def ofCapacity (capacity : Nat) : Pool α :=
  { capacity := max capacity 1 }

/-- A get claims a new slot, or asks for one that comes back. -/
def ask (pool : Pool α) (get : Nat) : Pool α :=
  if pool.created < pool.capacity then
    { pool with created := pool.created + 1, making := pool.making ++ [get] }
  else { pool with idle := pool.idle.ask get }

/-- A get takes the slot it was granted: an idle object is held at once, a vacant slot is filled. -/
def take (pool : Pool α) (get : Nat) : Pool α :=
  match pool.idle.take get with
  | (idle, some (some object)) => { pool with idle, held := pool.held ++ [(get, object)] }
  | (idle, _) => { pool with idle, making := pool.making ++ [get] }

/-- The object of a get's slot is made. -/
def finish (pool : Pool α) (get : Nat) (object : α) : Pool α :=
  { pool with making := pool.making.erase get, held := pool.held ++ [(get, object)] }

def object? (pool : Pool α) (guard : Nat) : Option α :=
  (pool.held.find? fun entry => entry.1 = guard).map (·.2)

/-- Puts another object in place of the one held. -/
def set (pool : Pool α) (guard : Nat) (object : α) : Pool α :=
  { pool with
    held := pool.held.map fun entry => if entry.1 = guard then (guard, object) else entry }

/-- Ends a guard: its slot goes back with the object or vacant. The permit follows by `signal`. -/
def giveBack (pool : Pool α) (guard : Nat) (keep : Bool) : Pool α :=
  match pool.object? guard with
  | none => pool
  | some object =>
    { pool with
      held := pool.held.filter fun entry => entry.1 ≠ guard
      idle := pool.idle.store (if keep then some object else none) }

/-- Gives up a get. A slot it owns goes back vacant, and the permit follows by `signal`. -/
def cancel (pool : Pool α) (get : Nat) : Pool α :=
  if pool.making.contains get then
    { pool with making := pool.making.erase get, idle := pool.idle.store none }
  else { pool with idle := pool.idle.cancel get }

/-- Adds the permit of a slot that went back. -/
def signal (pool : Pool α) : Pool α :=
  { pool with idle := pool.idle.signal }

def isMaking (pool : Pool α) (get : Nat) : Bool := pool.making.contains get

def isReady (pool : Pool α) (get : Nat) : Bool := pool.idle.isReady get

/-- What a task does to a pool in one step. -/
inductive Step (α : Type) where
  | ask (get : Nat)
  | take (get : Nat)
  /-- The object is not made. The get keeps its slot and tries again. -/
  | fail (get : Nat)
  | finish (get : Nat) (object : α)
  | giveBack (guard : Nat) (keep : Bool)
  | cancel (get : Nat)
  | signal

/-- Whether a get or guard of this number is under way. -/
def isKnown (pool : Pool α) (number : Nat) : Bool :=
  pool.idle.isKnown number || pool.isMaking number || (pool.object? number).isSome

def step? (pool : Pool α) : Step α → Option (Pool α)
  | .ask get => if pool.isKnown get then none else some (pool.ask get)
  | .take get => if pool.isReady get then some (pool.take get) else none
  | .fail get => if pool.isMaking get then some pool else none
  | .finish get object => if pool.isMaking get then some (pool.finish get object) else none
  | .giveBack guard keep =>
    if (pool.object? guard).isSome then some (pool.giveBack guard keep) else none
  | .cancel get =>
    if pool.isMaking get || pool.idle.isKnown get then some (pool.cancel get) else none
  | .signal => if pool.idle.unsignalled = 0 then none else some pool.signal

end Pool

end GelfCourier
