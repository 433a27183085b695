import GelfCourier.Concurrent.Pool

/-!
A pool does not look at its objects. Where each of them is replaced by its image under a function, the
pool takes the same steps, and ends with the images of what it would have had. The same is true of a
queue and its items.
-/

set_option autoImplicit false

namespace GelfCourier

variable {α β γ : Type}

namespace Queue

def map (f : α → β) (queue : Queue α) : Queue β :=
  { queue with items := queue.items.map f }

variable (f : α → β) (queue : Queue α) (popper : Nat)

theorem addPermit_map : (queue.map f).addPermit = queue.addPermit.map f := by
  unfold addPermit map
  cases queue.waiting <;> rfl

theorem store_map (item : α) : (queue.map f).store (f item) = (queue.store item).map f := by
  unfold store map
  rw [List.map_append]
  rfl

theorem signal_map : (queue.map f).signal = queue.signal.map f :=
  addPermit_map f { queue with unsignalled := queue.unsignalled - 1 }

theorem ask_map : (queue.map f).ask popper = (queue.ask popper).map f := by
  unfold ask map
  dsimp only
  split
  · rfl
  · split <;> rfl

theorem take_map :
    (queue.map f).take popper =
      ((queue.take popper).1.map f, (queue.take popper).2.map f) := by
  unfold take map
  rw [← List.map_tail, List.head?_map]

theorem cancel_map : (queue.map f).cancel popper = (queue.cancel popper).map f := by
  unfold cancel
  by_cases hgranted : queue.granted.contains popper = true
  · rw [if_pos hgranted]
    refine (if_pos hgranted).trans ?_
    exact addPermit_map f { queue with granted := queue.granted.erase popper }
  · rw [if_neg hgranted]
    exact if_neg hgranted

end Queue

namespace Pool

def map (f : α → β) (pool : Pool α) : Pool β where
  capacity := pool.capacity
  created := pool.created
  idle := pool.idle.map (Option.map f)
  making := pool.making
  held := pool.held.map fun entry ↦ (entry.1, f entry.2)

def Step.map (f : α → β) : Step α → Step β
  | .ask get => .ask get
  | .take get => .take get
  | .fail get => .fail get
  | .finish get object => .finish get (f object)
  | .giveBack guard keep => .giveBack guard keep
  | .cancel get => .cancel get
  | .signal => .signal

theorem Step.map_map (g : β → γ) (f : α → β) (step : Step α) :
    (step.map f).map g = step.map (g ∘ f) := by
  cases step <;> rfl

theorem Step.map_id (step : Step α) : step.map id = step := by
  cases step <;> rfl

variable (f : α → β) (pool : Pool α) (get : Nat)

theorem object?_map : (pool.map f).object? get = (pool.object? get).map f := by
  unfold object? map
  rw [List.find?_map, Option.map_map, Option.map_map]
  rfl

theorem ask_map : (pool.map f).ask get = (pool.ask get).map f := by
  unfold ask
  by_cases hroom : pool.created < pool.capacity
  · rw [if_pos hroom]
    exact if_pos hroom
  · rw [if_neg hroom]
    refine (if_neg hroom).trans ?_
    unfold map
    rw [Queue.ask_map]

theorem take_map : (pool.map f).take get = (pool.take get).map f := by
  have hqueue : (pool.map f).idle.take get =
      ((pool.idle.take get).1.map (Option.map f), (pool.idle.take get).2.map (Option.map f)) :=
    Queue.take_map (Option.map f) pool.idle get
  unfold take
  rw [hqueue]
  rcases pool.idle.take get with ⟨idle, (_ | _ | object)⟩
  · rfl
  · rfl
  · simp [map]

theorem finish_map (object : α) :
    (pool.map f).finish get (f object) = (pool.finish get object).map f := by
  simp [finish, map]

theorem set_map (object : α) :
    (pool.map f).set get (f object) = (pool.set get object).map f := by
  have hentries : ∀ entry : Nat × α,
      (if entry.1 = get then (get, f object) else (entry.1, f entry.2)) =
        ((if entry.1 = get then (get, object) else entry).1,
          f (if entry.1 = get then (get, object) else entry).2) := fun entry ↦ by
    split <;> rfl
  simp [set, map, hentries]

theorem giveBack_map (keep : Bool) :
    (pool.map f).giveBack get keep = (pool.giveBack get keep).map f := by
  unfold giveBack
  rw [object?_map]
  cases pool.object? get with
  | none => rfl
  | some object =>
    have hslot : (if keep then some (f object) else none) =
        (if keep then some object else none).map f := by
      cases keep <;> rfl
    have hstored := Queue.store_map (Option.map f) pool.idle (if keep then some object else none)
    simp only [Option.map_some, hslot]
    unfold map
    rw [hstored, List.filter_map]
    rfl

theorem cancel_map : (pool.map f).cancel get = (pool.cancel get).map f := by
  unfold cancel
  by_cases hmaking : pool.making.contains get = true
  · rw [if_pos hmaking]
    refine (if_pos hmaking).trans ?_
    have hstored := Queue.store_map (Option.map f) pool.idle none
    unfold map
    rw [← hstored]
    rfl
  · rw [if_neg hmaking]
    refine (if_neg hmaking).trans ?_
    unfold map
    rw [Queue.cancel_map]

theorem signal_map : (pool.map f).signal = pool.signal.map f := by
  unfold signal map
  rw [Queue.signal_map]

theorem isMaking_map : (pool.map f).isMaking get = pool.isMaking get := rfl

theorem isKnown_idle_map : (pool.map f).idle.isKnown get = pool.idle.isKnown get := rfl

theorem isKnown_map : (pool.map f).isKnown get = pool.isKnown get := by
  unfold isKnown
  rw [object?_map, Option.isSome_map, isMaking_map, isKnown_idle_map]

/-- The pool of the images takes the same steps. -/
theorem step?_map (step : Step α) :
    (pool.map f).step? (step.map f) = (pool.step? step).map (map f) := by
  have hite := @apply_ite _ _ (Option.map (map f))
  cases step with
  | ask get =>
    simp only [step?, Step.map, isKnown_map, ask_map, hite, Option.map_some, Option.map_none]
  | take get =>
    simp only [step?, Step.map, take_map, hite, Option.map_some, Option.map_none]
    rfl
  | fail get =>
    simp only [step?, Step.map, isMaking_map, hite, Option.map_some, Option.map_none]
    rfl
  | finish get object =>
    simp only [step?, Step.map, isMaking_map, finish_map, hite, Option.map_some, Option.map_none]
  | giveBack guard keep =>
    simp only [step?, Step.map, object?_map, Option.isSome_map, giveBack_map, hite,
      Option.map_some, Option.map_none]
  | cancel get =>
    simp only [step?, Step.map, isMaking_map, isKnown_idle_map, cancel_map, hite,
      Option.map_some, Option.map_none]
  | signal =>
    have hpending : (pool.map f).idle.unsignalled = pool.idle.unsignalled := rfl
    simp only [step?, Step.map, hpending, signal_map, hite, Option.map_some, Option.map_none]

end Pool

end GelfCourier
