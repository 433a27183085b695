import GelfCourier.Proofs.Concurrent.Balance
import GelfCourier.Proofs.Run

/-!
What a queue gives out. In every run the items removed, and behind them those that are left, are the
items pushed, in the order of the pushes. A pop comes back with nothing only from a queue that is
closed and empty. A close, and nothing else, closes the queue for good: it lets every pop under way
go on, and from then on nobody waits.
-/

set_option autoImplicit false

namespace GelfCourier.Queue

variable {α : Type}

/-! ### What a step does -/

/-- The queue after a step, where the step is possible. -/
def next? (queue : Queue α) (step : Step α) : Option (Queue α) :=
  (queue.step? step).map Prod.fst

/-- The pop that ends with a step, and what it took. -/
def outcome? (queue : Queue α) (step : Step α) : Option (Nat × Option α) :=
  (queue.step? step).bind Prod.snd

def removed? (queue : Queue α) (step : Step α) : Option α :=
  (queue.outcome? step).bind Prod.snd

def Step.pushed? : Step α → Option α
  | .store item => some item
  | _ => none

/-- One step, with the outcome of the pop that ends with it. -/
inductive Moves (queue : Queue α) : Step α → Option (Nat × Option α) → Queue α → Prop where
  | store (item : α) : Moves queue (.store item) none (queue.store item)
  | signal (hpending : queue.unsignalled ≠ 0) : Moves queue .signal none queue.signal
  | ask (popper : Nat) : Moves queue (.ask popper) none (queue.ask popper)
  | askNow (popper : Nat) (hfree : queue.closed = true ∨ queue.permits ≠ 0) :
      Moves queue (.askNow popper) none (queue.ask popper)
  | turnAway (popper : Nat) : Moves queue (.askNow popper) (some (popper, none)) queue
  | take (popper : Nat) (hready : queue.isReady popper = true) :
      Moves queue (.take popper) (some (popper, queue.items.head?)) (queue.take popper).1
  | cancel (popper : Nat) : Moves queue (.cancel popper) none (queue.cancel popper)
  | close : Moves queue .close none queue.close

variable {queue after : Queue α} {popper : Nat} {step : Step α}
  {outcome : Option (Nat × Option α)}

/-- Where there is a permit, or the queue is closed, a popper need not wait. -/
theorem isReady_ask (hfree : queue.closed = true ∨ queue.permits ≠ 0) (popper : Nat) :
    (queue.ask popper).isReady popper = true := by
  unfold ask isReady
  by_cases hclosed : queue.closed = true
  · simp [hclosed]
  · have hpermits : queue.permits ≠ 0 := hfree.resolve_left hclosed
    simp [hclosed, hpermits]

theorem moves_of_step? (h : queue.step? step = some (after, outcome)) :
    queue.Moves step outcome after := by
  cases step with
  | store item =>
    cases h
    exact .store item
  | signal =>
    simp only [step?] at h
    split at h
    · cases h
    · next hpending => cases h; exact .signal hpending
  | ask popper =>
    simp only [step?] at h
    split at h
    · cases h
    · cases h; exact .ask popper
  | askNow popper =>
    simp only [step?] at h
    split at h
    · cases h
    · next hunknown =>
      obtain ⟨rfl, rfl⟩ := Prod.mk.inj (Option.some.inj h)
      by_cases hfree : queue.closed = true ∨ queue.permits ≠ 0
      · rw [askNow, if_pos hfree, if_pos (isReady_ask hfree popper)]
        exact .askNow popper hfree
      · have hnotReady : ¬ queue.isReady popper = true := fun hready ↦
          hunknown (by rw [isKnown, hready, Bool.or_true])
        rw [askNow, if_neg hfree, if_neg hnotReady]
        exact .turnAway popper
  | take popper =>
    simp only [step?] at h
    split at h
    · next hready => cases h; exact .take popper hready
    · cases h
  | cancel popper =>
    simp only [step?] at h
    split at h
    · cases h; exact .cancel popper
    · cases h
  | close =>
    cases h
    exact .close

theorem moves_of_next? (h : queue.next? step = some after) :
    queue.Moves step (queue.outcome? step) after := by
  obtain ⟨⟨other, outcome⟩, hstep, rfl⟩ := Option.map_eq_some_iff.mp h
  have houtcome : queue.outcome? step = outcome := by
    unfold outcome?
    rw [hstep]
    rfl
  rw [houtcome]
  exact moves_of_step? hstep

/-! ### Poppers under way are different -/

theorem isKnown_iff : queue.isKnown popper = true ↔ popper ∈ queue.callers := by
  simp [isKnown, isReady, callers]

theorem isReady_iff : queue.isReady popper = true ↔ popper ∈ queue.granted ++ queue.refused := by
  simp [isReady]

/-- Who waits is not ready, where nobody is under way twice. -/
theorem isReady_of_mem_waiting (hdistinct : queue.callers.Nodup) (hwaits : popper ∈ queue.waiting) :
    queue.isReady popper = false := by
  obtain ⟨-, -, hapart⟩ := List.nodup_append.mp hdistinct
  refine Bool.eq_false_iff.mpr fun hready ↦ ?_
  exact hapart popper hwaits popper (isReady_iff.mp hready) rfl

theorem not_mem_callers_of_asks (hasks : step = .ask popper ∨ step = .askNow popper)
    (hnext : queue.next? step = some after) : popper ∉ queue.callers := by
  intro hmem
  have hknown := isKnown_iff.mpr hmem
  rcases hasks with rfl | rfl <;> simp [next?, step?, hknown] at hnext

theorem nodup_callers_ask (hdistinct : queue.callers.Nodup) (hfresh : popper ∉ queue.callers) :
    (queue.ask popper).callers.Nodup :=
  (callers_ask queue popper).nodup_iff.mpr (List.nodup_cons.mpr ⟨hfresh, hdistinct⟩)

theorem nodup_callers_cancel (hdistinct : queue.callers.Nodup) (popper : Nat) :
    (queue.cancel popper).callers.Nodup := by
  have hgranted : (queue.granted.erase popper).Sublist queue.granted := List.erase_sublist
  unfold cancel
  split
  · refine (callers_addPermit _).nodup_iff.mpr (hdistinct.sublist ?_)
    exact (List.Sublist.refl _).append (hgranted.append (List.Sublist.refl _))
  · refine hdistinct.sublist ?_
    exact List.erase_sublist.append ((List.Sublist.refl _).append List.erase_sublist)

theorem nodup_callers_next? (hdistinct : queue.callers.Nodup)
    (hnext : queue.next? step = some after) : after.callers.Nodup := by
  have hmoves := moves_of_next? hnext
  generalize queue.outcome? step = outcome at hmoves
  cases hmoves with
  | store item => exact hdistinct
  | signal hpending => exact (callers_addPermit _).nodup_iff.mpr hdistinct
  | ask popper => exact nodup_callers_ask hdistinct (not_mem_callers_of_asks (.inl rfl) hnext)
  | askNow popper hfree =>
    exact nodup_callers_ask hdistinct (not_mem_callers_of_asks (.inr rfl) hnext)
  | turnAway popper => exact hdistinct
  | take popper hready =>
    exact (List.nodup_cons.mp ((callers_take hready).nodup_iff.mp hdistinct)).2
  | cancel popper => exact nodup_callers_cancel hdistinct popper
  | close => exact (callers_close queue).nodup_iff.mpr hdistinct

/-- Who gives up is gone. -/
theorem isKnown_cancel (hdistinct : queue.callers.Nodup) (popper : Nat) :
    (queue.cancel popper).isKnown popper = false := by
  obtain ⟨hwaiting, hready, -⟩ := List.nodup_append.mp hdistinct
  obtain ⟨-, hrefused, -⟩ := List.nodup_append.mp hready
  refine Bool.eq_false_iff.mpr fun hknown ↦ ?_
  have hmem := isKnown_iff.mp hknown
  by_cases hgranted : queue.granted.contains popper = true
  · have htakes : queue.isReady popper = true := by rw [isReady, hgranted, Bool.true_or]
    have hgone := (List.nodup_cons.mp ((callers_take htakes).nodup_iff.mp hdistinct)).1
    rw [cancel, if_pos hgranted] at hmem
    have hheld : popper ∈ queue.granted := List.contains_iff_mem.mp hgranted
    exact hgone (by simpa [callers, take, hheld] using (callers_addPermit _).mem_iff.mp hmem)
  · rw [cancel, if_neg hgranted] at hmem
    have hother : popper ∉ queue.granted := fun hheld ↦ hgranted (List.contains_iff_mem.mpr hheld)
    simp [callers, hother, hwaiting.not_mem_erase, hrefused.not_mem_erase] at hmem

/-! ### A queue that keeps its word -/

/-- While the queue is open its permits are covered by items, and once it is closed nobody waits. -/
structure Sound (queue : Queue α) : Prop where
  balanced : queue.closed = false → queue.Balanced
  prompt : queue.closed = true → queue.waiting = []

theorem closed_addPermit (queue : Queue α) : queue.addPermit.closed = queue.closed := by
  unfold addPermit
  cases queue.waiting <;> rfl

theorem closed_ask (queue : Queue α) (popper : Nat) : (queue.ask popper).closed = queue.closed := by
  unfold ask
  split
  · rfl
  · split <;> rfl

theorem closed_cancel (queue : Queue α) (popper : Nat) :
    (queue.cancel popper).closed = queue.closed := by
  unfold cancel
  split
  · exact closed_addPermit _
  · rfl

theorem waiting_ask_of_closed (hclosed : queue.closed = true) (popper : Nat) :
    (queue.ask popper).waiting = queue.waiting := by
  unfold ask
  rw [if_pos hclosed]

namespace Sound

theorem empty : ({} : Queue α).Sound :=
  ⟨fun _ ↦ .empty, fun hclosed ↦ nomatch hclosed⟩

theorem store (h : queue.Sound) (item : α) : (queue.store item).Sound :=
  ⟨fun hopen ↦ (h.balanced hopen).store item, h.prompt⟩

theorem signal (h : queue.Sound) (hpending : queue.unsignalled ≠ 0) : queue.signal.Sound := by
  have hsame : queue.signal.closed = queue.closed := closed_addPermit _
  refine ⟨fun hopen ↦ (h.balanced (hsame ▸ hopen)).signal hpending, fun hclosed ↦ ?_⟩
  unfold Queue.signal
  rw [waiting_addPermit, h.prompt (hsame ▸ hclosed)]
  rfl

theorem ask (h : queue.Sound) (popper : Nat) : (queue.ask popper).Sound := by
  have hsame := closed_ask queue popper
  refine ⟨fun hopen ↦ (h.balanced (hsame ▸ hopen)).ask popper, fun hclosed ↦ ?_⟩
  rw [hsame] at hclosed
  rw [waiting_ask_of_closed hclosed, h.prompt hclosed]

theorem take (h : queue.Sound) (hready : queue.isReady popper = true) :
    (queue.take popper).1.Sound := by
  refine ⟨fun hopen ↦ ?_, h.prompt⟩
  have hbalanced := h.balanced hopen
  exact hbalanced.take (hbalanced.isReady_eq popper ▸ hready)

theorem cancel (h : queue.Sound) (popper : Nat) : (queue.cancel popper).Sound := by
  have hsame := closed_cancel queue popper
  refine ⟨fun hopen ↦ (h.balanced (hsame ▸ hopen)).cancel popper, fun hclosed ↦ ?_⟩
  refine Decidable.byContradiction fun hwaiting ↦ ?_
  exact waiting_ne_nil_of_cancel hwaiting (h.prompt (hsame ▸ hclosed))

theorem close (queue : Queue α) : queue.close.Sound :=
  ⟨fun hopen ↦ (nomatch hopen), fun _ ↦ rfl⟩

theorem moves (h : queue.Sound) (hmoves : queue.Moves step outcome after) : after.Sound := by
  cases hmoves with
  | store item => exact h.store item
  | signal hpending => exact h.signal hpending
  | ask popper => exact h.ask popper
  | askNow popper => exact h.ask popper
  | turnAway popper => exact h
  | take popper hready => exact h.take hready
  | cancel popper => exact h.cancel popper
  | close => exact .close queue

/-- Nobody who may take the front finds nothing there while the queue is open. -/
theorem closed_of_items_eq_nil (h : queue.Sound) (hready : queue.isReady popper = true)
    (hitems : queue.items = []) : queue.closed = true := by
  refine Decidable.byContradiction fun hopen ↦ ?_
  have hbalanced := h.balanced (Bool.eq_false_iff.mpr hopen)
  exact hbalanced.items_ne_nil (hbalanced.isReady_eq popper ▸ hready) hitems

/-- At a closed queue every popper may take the front. -/
theorem isReady_of_isKnown (h : queue.Sound) (hclosed : queue.closed = true)
    (hknown : queue.isKnown popper = true) : queue.isReady popper = true := by
  unfold isKnown at hknown
  rw [h.prompt hclosed] at hknown
  exact hknown

end Sound

namespace Moves

theorem closed_iff (hmoves : queue.Moves step outcome after) :
    after.closed = true ↔ queue.closed = true ∨ step = .close := by
  cases hmoves with
  | store item => simp [Queue.store]
  | signal hpending => simp [Queue.signal, closed_addPermit]
  | ask popper => simp [closed_ask]
  | askNow popper => simp [closed_ask]
  | turnAway popper => simp
  | take popper => simp [Queue.take]
  | cancel popper => simp [closed_cancel]
  | close => simp [Queue.close]

/-- An item comes in at the end with a push, and leaves from the front with a pop. -/
theorem items_eq (hmoves : queue.Moves step outcome after) :
    (outcome.bind Prod.snd).toList ++ after.items = queue.items ++ step.pushed?.toList := by
  cases hmoves with
  | store item => rfl
  | signal hpending => exact (items_addPermit _).trans (List.append_nil _).symm
  | ask popper => exact (items_ask queue popper).trans (List.append_nil _).symm
  | askNow popper => exact (items_ask queue popper).trans (List.append_nil _).symm
  | turnAway popper => exact (List.append_nil _).symm
  | take popper =>
    change queue.items.head?.toList ++ queue.items.tail = queue.items ++ []
    cases hitems : queue.items <;> simp
  | cancel popper => exact (items_cancel queue popper).trans (List.append_nil _).symm
  | close => exact (List.append_nil _).symm

end Moves

/-! ### Whole runs -/

/-- The items pushed in a run, in order. -/
def pushes (history : List (Queue α × Step α)) : List α :=
  Run.observed (fun _ step ↦ step.pushed?) history

/-- The items that pops took in a run, in order. -/
def removals (history : List (Queue α × Step α)) : List α :=
  Run.observed removed? history

section Runs

variable {history : List (Queue α × Step α)}

theorem nodup_callers (run : Run next? ({} : Queue α) history queue) : queue.callers.Nodup :=
  Run.invariant (fun queue ↦ queue.callers.Nodup) run List.nodup_nil fun _ _ _ hdistinct hnext ↦
    nodup_callers_next? hdistinct hnext

theorem sound (run : Run next? ({} : Queue α) history queue) : queue.Sound :=
  Run.invariant Sound run .empty fun _ _ _ h possible ↦ h.moves (moves_of_next? possible)

theorem removals_append_items (run : Run next? ({} : Queue α) history queue) :
    removals history ++ queue.items = pushes history := by
  induction run with
  | start => rfl
  | @step history before after step run possible ih =>
    have hmoves := moves_of_next? possible
    calc removals (history ++ [(before, step)]) ++ after.items
        = removals history ++ ((before.removed? step).toList ++ after.items) := by
          rw [removals, Run.observed_append_singleton, List.append_assoc]
          rfl
      _ = removals history ++ (before.items ++ step.pushed?.toList) := by
          rw [removed?, hmoves.items_eq]
      _ = pushes (history ++ [(before, step)]) := by
          rw [← List.append_assoc, ih, pushes, pushes, Run.observed_append_singleton]

theorem closed_of_run (run : Run next? ({} : Queue α) history queue) :
    ∀ entry ∈ history, entry.1.closed = true → queue.closed = true := by
  induction run with
  | start => exact fun _ hentry ↦ nomatch hentry
  | step run possible ih =>
    intro entry hentry hclosed
    have hkept := (moves_of_next? possible).closed_iff
    rcases List.mem_append.mp hentry with hold | hlast
    · exact hkept.mpr (.inl (ih entry hold hclosed))
    · rw [List.mem_singleton.mp hlast] at hclosed
      exact hkept.mpr (.inl hclosed)

theorem closed_iff_of_run (run : Run next? ({} : Queue α) history queue) :
    queue.closed = true ↔ ∃ entry ∈ history, entry.2 = .close := by
  have hclosed := run.holds_iff (fun queue ↦ queue.closed = true) (· = .close)
    fun _ _ _ possible ↦ (moves_of_next? possible).closed_iff
  rw [hclosed]
  simp

/-- After a close nobody waits, and who is under way may take the front. -/
theorem isReady_close {popper : Nat} (hknown : queue.isKnown popper = true) :
    queue.close.isReady popper = true := by
  have hmem := (callers_close queue).mem_iff.mpr (isKnown_iff.mp hknown)
  exact isReady_iff.mpr hmem

/-- What a run of pushes and pops comes to. -/
structure Lossless (history : List (Queue α × Step α)) (queue : Queue α) : Prop where
  /-- What was removed, and behind it what is left, is what was pushed. -/
  conserved : removals history ++ queue.items = pushes history
  /-- A pop comes back with nothing only from a queue that is closed and empty. -/
  emptied : ∀ before popper, (before, Step.take popper) ∈ history →
    before.outcome? (.take popper) = some (popper, none) →
    before.closed = true ∧ before.items = []
  /-- A pop that is given up is gone, and no item goes with it. -/
  cancelled : ∀ popper, queue.isKnown popper = true → ∃ after,
    queue.next? (.cancel popper) = some after ∧ after.isKnown popper = false ∧
      after.items = queue.items
  /-- A close leaves the items where they are and lets every pop under way go on. -/
  closes : ∃ after, queue.next? .close = some after ∧ after.closed = true ∧ after.waiting = [] ∧
    after.items = queue.items ∧
      ∀ popper, queue.isKnown popper = true → after.isReady popper = true
  /-- Nothing but a close closes the queue. -/
  closed_iff : queue.closed = true ↔ ∃ entry ∈ history, entry.2 = .close
  /-- A closed queue stays closed. -/
  shut : ∀ entry ∈ history, entry.1.closed = true → queue.closed = true
  /-- Pops under way at a closed queue end with what is at the front, if anything is. -/
  prompt : queue.closed = true → queue.waiting = [] ∧ ∀ popper, queue.isKnown popper = true →
    queue.step? (.take popper) = some ((queue.take popper).1, some (popper, queue.items.head?))
  /-- Pops that begin at a closed queue need not wait, either. -/
  admitted : queue.closed = true → ∀ popper, queue.isKnown popper = false →
    ∀ step, step = .ask popper ∨ step = .askNow popper →
      queue.step? step = some (queue.ask popper, none) ∧
      (queue.ask popper).isReady popper = true ∧ (queue.ask popper).items = queue.items

/-- Nothing is lost, doubled or overtaken in any run, whoever pushes, pops, gives up or closes. -/
theorem lossless_of_run (run : Run next? ({} : Queue α) history queue) :
    Lossless history queue := by
  have hsound := sound run
  constructor
  case conserved => exact removals_append_items run
  case emptied =>
    intro before popper hentry houtcome
    obtain ⟨earlier, hearlier, after, hafter⟩ := run.of_mem hentry
    have hmoves := moves_of_next? hafter
    rw [houtcome] at hmoves
    generalize houtcome : some (popper, none) = outcome at hmoves
    cases hmoves with
    | take popper hready =>
      have hitems : before.items = [] := by
        rw [Option.some.injEq, Prod.mk.injEq] at houtcome
        exact List.head?_eq_none_iff.mp houtcome.2.symm
      exact ⟨(sound hearlier).closed_of_items_eq_nil hready hitems, hitems⟩
  case cancelled =>
    intro popper hknown
    refine ⟨queue.cancel popper, by simp [next?, step?, hknown], ?_, items_cancel queue popper⟩
    exact isKnown_cancel (nodup_callers run) popper
  case closes =>
    exact ⟨queue.close, rfl, rfl, rfl, rfl, fun popper hknown ↦ isReady_close hknown⟩
  case closed_iff => exact closed_iff_of_run run
  case shut => exact closed_of_run run
  case prompt =>
    intro hclosed
    refine ⟨hsound.prompt hclosed, fun popper hknown ↦ ?_⟩
    have hready := hsound.isReady_of_isKnown hclosed hknown
    simp only [step?, if_pos hready]
    rfl
  case admitted =>
    intro hclosed popper hunknown step hstep
    have hready := isReady_ask (.inl hclosed) popper
    refine ⟨?_, hready, items_ask queue popper⟩
    rcases hstep with rfl | rfl
    · simp [step?, hunknown]
    · simp [step?, hunknown, askNow, hclosed, hready]

/-- Two pops wait. The first is given up after it was granted the only item, which goes to the
second. A third waits until the close and then finds an item that was pushed after it, and the last
one finds nothing. -/
def contendedSteps : List (Step Nat) :=
  [.ask 1, .ask 2, .store 7, .signal, .cancel 1, .askNow 3, .take 2, .ask 4, .close, .store 8,
    .ask 5, .take 4, .signal, .take 5]

theorem lossless_of_contendedSteps : ∃ (history : List (Queue Nat × Step Nat)) (queue : Queue Nat),
    Run next? {} history queue ∧ queue.closed = true ∧ queue.isKnown 1 = false ∧
      removals history = [7, 8] ∧ Lossless history queue := by
  have hfollow : (Run.follow? next? ({} : Queue Nat) contendedSteps).map
      (fun taken ↦ (taken.2.closed, taken.2.isKnown 1, removals taken.1)) =
        some (true, false, [7, 8]) := by
    decide
  obtain ⟨⟨history, queue⟩, htaken, hreached⟩ := Option.map_eq_some_iff.mp hfollow
  simp only [Prod.mk.injEq] at hreached
  obtain ⟨hclosed, hgone, hremovals⟩ := hreached
  have run := Run.of_follow? htaken
  exact ⟨history, queue, run, hclosed, hgone, hremovals, lossless_of_run run⟩

end Runs

end GelfCourier.Queue
