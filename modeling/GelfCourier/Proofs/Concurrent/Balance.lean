import GelfCourier.Concurrent.Queue
import GelfCourier.Proofs.Concurrent.Numbered

/-!
Items and permits of a queue that stays open. Every item stands for a free permit, for a popper that
was granted one, or for a push that has not added its permit yet; and where a permit is free, nobody
waits.
-/

set_option autoImplicit false

namespace GelfCourier.Queue

variable {α : Type}

/-- Poppers under way: those that wait, and those that have a permit. -/
def poppers (queue : Queue α) : List Nat :=
  queue.waiting ++ queue.granted

structure Balanced (queue : Queue α) : Prop where
  isOpen : queue.closed = false
  refused_eq : queue.refused = []
  items_eq : queue.items.length = queue.permits + queue.granted.length + queue.unsignalled
  waiting_eq : queue.permits ≠ 0 → queue.waiting = []

variable {queue : Queue α} {popper : Nat}

/-! ### Items and waiting poppers -/

theorem waiting_addPermit (queue : Queue α) : queue.addPermit.waiting = queue.waiting.tail := by
  unfold addPermit
  cases queue.waiting <;> rfl

theorem items_addPermit (queue : Queue α) : queue.addPermit.items = queue.items := by
  unfold addPermit
  cases queue.waiting <;> rfl

theorem unsignalled_addPermit (queue : Queue α) :
    queue.addPermit.unsignalled = queue.unsignalled := by
  unfold addPermit
  cases queue.waiting <;> rfl

theorem unsignalled_ask (queue : Queue α) (popper : Nat) :
    (queue.ask popper).unsignalled = queue.unsignalled := by
  unfold ask
  split
  · rfl
  · split <;> rfl

theorem items_ask (queue : Queue α) (popper : Nat) : (queue.ask popper).items = queue.items := by
  unfold ask
  split
  · rfl
  · split <;> rfl

theorem items_cancel (queue : Queue α) (popper : Nat) :
    (queue.cancel popper).items = queue.items := by
  unfold cancel
  split
  · exact items_addPermit _
  · rfl

theorem waiting_ne_nil_of_cancel (h : (queue.cancel popper).waiting ≠ []) : queue.waiting ≠ [] := by
  intro hnone
  apply h
  unfold cancel
  split
  · rw [waiting_addPermit, hnone]
    rfl
  · simp only [hnone, List.erase_nil]

/-- The permit goes from one popper to another or stays free, and no popper comes or goes. -/
theorem count_poppers_addPermit (queue : Queue α) (number : Nat) :
    queue.addPermit.poppers.count number = queue.poppers.count number := by
  unfold addPermit poppers
  cases hwaiting : queue.waiting with
  | nil => simp
  | cons first rest =>
    simp only [List.count_append, List.count_cons, List.count_nil]
    omega

/-- Assumes: a queue with one item more than it has permits. -/
theorem balanced_addPermit (hopen : queue.closed = false) (hrefused : queue.refused = [])
    (hitems : queue.items.length = queue.permits + queue.granted.length + queue.unsignalled + 1)
    (hwaiting : queue.permits ≠ 0 → queue.waiting = []) : queue.addPermit.Balanced := by
  unfold addPermit
  cases hfirst : queue.waiting with
  | nil => exact ⟨hopen, hrefused, by dsimp only; omega, fun _ ↦ rfl⟩
  | cons first rest =>
    have hnone : queue.permits = 0 := Decidable.byContradiction fun hsome ↦ by
      rw [hwaiting hsome] at hfirst
      cases hfirst
    refine ⟨hopen, hrefused, ?_, fun hsome ↦ absurd hnone hsome⟩
    simp only [List.length_append, List.length_singleton]
    omega

/-! ### Poppers that come and go -/

theorem count_poppers_ask (hopen : queue.closed = false) (popper number : Nat) :
    (queue.ask popper).poppers.count number =
      queue.poppers.count number + if popper = number then 1 else 0 := by
  have hclosed : ¬ queue.closed = true := by rw [hopen]; exact Bool.false_ne_true
  unfold ask poppers
  rw [if_neg hclosed]
  by_cases hnone : queue.permits = 0
  · rw [if_pos hnone]
    simp only [List.count_append, List.count_singleton, beq_iff_eq]
    omega
  · rw [if_neg hnone]
    simp only [List.count_append, List.count_singleton, beq_iff_eq]
    omega

theorem count_poppers_take (hgranted : queue.granted.contains popper = true) (number : Nat) :
    (queue.take popper).1.poppers.count number + (if popper = number then 1 else 0) =
      queue.poppers.count number := by
  have hmem : popper ∈ queue.granted := by simpa using hgranted
  have hcount := Numbered.count_erase_add hmem number
  unfold take poppers
  simp only [List.count_append]
  omega

theorem count_poppers_cancel (hknown : popper ∈ queue.poppers) (number : Nat) :
    (queue.cancel popper).poppers.count number + (if popper = number then 1 else 0) =
      queue.poppers.count number := by
  unfold cancel
  by_cases hgranted : queue.granted.contains popper = true
  · have hmem : popper ∈ queue.granted := by simpa using hgranted
    have hcount := Numbered.count_erase_add hmem number
    rw [if_pos hgranted, count_poppers_addPermit]
    unfold poppers
    simp only [List.count_append]
    omega
  · have hmem : popper ∈ queue.waiting := by
      rcases List.mem_append.mp hknown with hwaiting | hother
      · exact hwaiting
      · exact absurd (by simpa using hother) hgranted
    have hcount := Numbered.count_erase_add hmem number
    rw [if_neg hgranted]
    unfold poppers
    simp only [List.count_append]
    omega

/-! ### Each operation -/

namespace Balanced

theorem empty : ({} : Queue α).Balanced := ⟨rfl, rfl, rfl, fun _ ↦ rfl⟩

theorem isReady_eq (h : queue.Balanced) (popper : Nat) :
    queue.isReady popper = queue.granted.contains popper := by
  simp [isReady, h.refused_eq]

theorem store (h : queue.Balanced) (item : α) : (queue.store item).Balanced where
  isOpen := h.isOpen
  refused_eq := h.refused_eq
  items_eq := by
    have hitems := h.items_eq
    simp only [Queue.store, List.length_append, List.length_singleton]
    omega
  waiting_eq := h.waiting_eq

theorem signal (h : queue.Balanced) (hpending : queue.unsignalled ≠ 0) :
    queue.signal.Balanced := by
  have hitems := h.items_eq
  exact balanced_addPermit h.isOpen h.refused_eq (by dsimp only; omega) h.waiting_eq

theorem ask (h : queue.Balanced) (popper : Nat) : (queue.ask popper).Balanced := by
  have hitems := h.items_eq
  have hopen : ¬ queue.closed = true := by rw [h.isOpen]; exact Bool.false_ne_true
  unfold Queue.ask
  rw [if_neg hopen]
  by_cases hnone : queue.permits = 0
  · rw [if_pos hnone]
    exact ⟨h.isOpen, h.refused_eq, h.items_eq, fun hsome ↦ absurd hnone hsome⟩
  · rw [if_neg hnone]
    refine ⟨h.isOpen, h.refused_eq, ?_, fun _ ↦ h.waiting_eq hnone⟩
    simp only [List.length_append, List.length_singleton]
    omega

/-- A popper that was granted a permit finds an item. -/
theorem items_ne_nil (h : queue.Balanced) (hgranted : queue.granted.contains popper = true) :
    queue.items ≠ [] := by
  have hmem : popper ∈ queue.granted := by simpa using hgranted
  have hgranted := List.length_pos_of_mem hmem
  have hitems := h.items_eq
  intro hnone
  rw [hnone, List.length_nil] at hitems
  omega

theorem take (h : queue.Balanced) (hgranted : queue.granted.contains popper = true) :
    (queue.take popper).1.Balanced := by
  have hmem : popper ∈ queue.granted := by simpa using hgranted
  have hitems := h.items_eq
  have hpositive := List.length_pos_of_mem hmem
  refine ⟨h.isOpen, ?_, ?_, h.waiting_eq⟩
  · simp only [Queue.take, if_pos hgranted]
    exact h.refused_eq
  · simp only [Queue.take, List.length_tail, List.length_erase_of_mem hmem]
    omega

theorem cancel (h : queue.Balanced) (popper : Nat) : (queue.cancel popper).Balanced := by
  have hitems := h.items_eq
  unfold Queue.cancel
  by_cases hgranted : queue.granted.contains popper = true
  · rw [if_pos hgranted]
    have hmem : popper ∈ queue.granted := by simpa using hgranted
    have hpositive := List.length_pos_of_mem hmem
    refine balanced_addPermit h.isOpen h.refused_eq ?_ h.waiting_eq
    simp only [List.length_erase_of_mem hmem]
    omega
  · rw [if_neg hgranted]
    refine ⟨h.isOpen, ?_, h.items_eq, fun hsome ↦ ?_⟩
    · simp only [h.refused_eq, List.erase_nil]
    · simp only [h.waiting_eq hsome, List.erase_nil]

end Balanced

/-! ### Everybody under way -/

/-- Poppers under way at a queue, open or closed. -/
def callers (queue : Queue α) : List Nat :=
  queue.waiting ++ (queue.granted ++ queue.refused)

theorem callers_addPermit (queue : Queue α) : queue.addPermit.callers.Perm queue.callers := by
  unfold addPermit callers
  refine List.perm_iff_count.mpr fun number ↦ ?_
  cases queue.waiting with
  | nil => rfl
  | cons first rest =>
    simp only [List.count_append, List.count_cons, List.count_nil]
    omega

theorem callers_ask (queue : Queue α) (popper : Nat) :
    (queue.ask popper).callers.Perm (popper :: queue.callers) := by
  unfold ask callers
  refine List.perm_iff_count.mpr fun number ↦ ?_
  split
  · simp only [List.count_append, List.count_cons, List.count_nil]
    omega
  · split <;>
    · simp only [List.count_append, List.count_cons, List.count_nil]
      omega

theorem callers_take (hready : queue.isReady popper = true) :
    queue.callers.Perm (popper :: (queue.take popper).1.callers) := by
  unfold take callers
  refine List.perm_iff_count.mpr fun number ↦ ?_
  dsimp only
  split
  · next hgranted =>
    have hcount := Numbered.count_erase_add (List.contains_iff_mem.mp hgranted) number
    simp only [List.count_append, List.count_cons, beq_iff_eq]
    omega
  · next hother =>
    have hgranted : popper ∉ queue.granted := fun hmem ↦ hother (List.contains_iff_mem.mpr hmem)
    have hboth : popper ∈ queue.granted ∨ popper ∈ queue.refused := by
      simpa [isReady] using hready
    have hmem : popper ∈ queue.refused := hboth.resolve_left hgranted
    have hcount := Numbered.count_erase_add hmem number
    rw [List.erase_of_not_mem hgranted]
    simp only [List.count_append, List.count_cons, beq_iff_eq]
    omega

theorem callers_close (queue : Queue α) : queue.close.callers.Perm queue.callers := by
  unfold close callers
  refine List.perm_iff_count.mpr fun number ↦ ?_
  simp only [List.count_append, List.count_nil]
  omega

end GelfCourier.Queue
