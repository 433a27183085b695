import GelfCourier.Concurrent.Lock

/-!
A lock and those that wait for it are one queue. Asking joins it at the end, and a release takes its
front away.
-/

set_option autoImplicit false

namespace GelfCourier.Lock

/-- The holder, and behind it those that wait. -/
def queue (lock : Lock) : List Nat :=
  lock.holder.toList ++ lock.waiting

/-- Nobody waits for a lock that is free. -/
def IsTidy (lock : Lock) : Prop :=
  lock.holder = none → lock.waiting = []

variable {lock : Lock}

theorem isTidy_ask (lock : Lock) (task : Nat) : (lock.ask task).IsTidy := by
  unfold ask
  split
  · intro hfree
    cases hfree
  · next hholder =>
    intro hfree
    rw [hholder] at hfree
    cases hfree

theorem isTidy_release (lock : Lock) : lock.release.IsTidy := by
  unfold release
  split
  · exact fun _ ↦ rfl
  · intro hfree
    cases hfree

theorem queue_ask (htidy : lock.IsTidy) (task : Nat) :
    (lock.ask task).queue = lock.queue ++ [task] := by
  unfold ask queue
  split
  · next hholder =>
    rw [hholder, htidy hholder]
    rfl
  · exact (List.append_assoc _ _ _).symm

theorem queue_release {holder : Nat} {waiting : List Nat}
    (hqueue : lock.queue = holder :: waiting) (htidy : lock.IsTidy) :
    lock.release.queue = waiting := by
  unfold queue at hqueue
  cases hholder : lock.holder with
  | none =>
    rw [hholder, htidy hholder] at hqueue
    cases hqueue
  | some task =>
    rw [hholder] at hqueue
    obtain ⟨-, rfl⟩ := List.cons.inj hqueue
    unfold release
    cases hwaiting : lock.waiting <;> rfl

/-- Who has the lock keeps it when another task asks. -/
theorem holder_ask {holder : Nat} (hheld : lock.holder = some holder) (task : Nat) :
    (lock.ask task).holder = some holder := by
  unfold ask
  rw [hheld]

theorem head?_queue (htidy : lock.IsTidy) : lock.queue.head? = lock.holder := by
  unfold queue
  cases hholder : lock.holder with
  | none => rw [htidy hholder]; rfl
  | some task => rfl

end GelfCourier.Lock
