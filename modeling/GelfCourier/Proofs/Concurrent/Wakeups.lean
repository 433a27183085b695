import GelfCourier.Proofs.Concurrent.QueueOrder

/-!
Who is woken at a queue that stays open. A push that adds its permit, and a popper that gives up one
it holds, each wake the popper that has waited longest and nobody else; no other step wakes anybody.
So no permit is lost or spent twice: the pushes that are over have each paid for an item that was
taken, for a popper that is about to take one, or for a permit that is free.
-/

set_option autoImplicit false

namespace GelfCourier.Queue

variable {α : Type} {queue after : Queue α} {popper : Nat} {step : Step α}
  {history : List (Queue α × Step α)}

/-! ### One permit -/

/-- One permit comes: it wakes the popper that has waited longest, and nobody else, and stays free
where nobody waits. -/
structure Releases (queue after : Queue α) : Prop where
  ready_eq : queue.newlyReady after = queue.waiting.take 1
  waiting_eq : after.waiting = queue.waiting.drop 1
  permits_eq : after.permits = queue.permits + if queue.waiting = [] then 1 else 0
  items_eq : after.items = queue.items

theorem filter_isReady {poppers : List Nat} (hready : ∀ popper ∈ poppers, queue.isReady popper) :
    poppers.filter (fun popper ↦ !queue.isReady popper) = [] := by
  refine List.filter_eq_nil_iff.mpr fun popper hmem ↦ ?_
  rw [hready popper hmem]
  exact Bool.false_ne_true

/-- A permit is added, and of the poppers that held one only some are `kept`. -/
theorem releases_addPermit (hdistinct : queue.callers.Nodup) {kept : List Nat}
    (hkept : kept ⊆ queue.granted) (unsignalled : Nat) :
    queue.Releases { queue with granted := kept, unsignalled }.addPermit := by
  have hkept : kept.filter (fun popper ↦ !queue.isReady popper) = [] :=
    filter_isReady fun popper hmem ↦ isReady_iff.mpr (List.mem_append_left _ (hkept hmem))
  have hrefused : queue.refused.filter (fun popper ↦ !queue.isReady popper) = [] :=
    filter_isReady fun popper hmem ↦ isReady_iff.mpr (List.mem_append_right _ hmem)
  cases hwaiting : queue.waiting with
  | nil => refine ⟨?_, ?_, ?_, ?_⟩ <;> simp [newlyReady, addPermit, hwaiting, hkept, hrefused]
  | cons first rest =>
    -- Who waits in front was not ready before, so the permit is what wakes it.
    have hfirst : queue.isReady first = false :=
      isReady_of_mem_waiting hdistinct (hwaiting ▸ List.mem_cons_self)
    refine ⟨?_, ?_, ?_, ?_⟩ <;>
      simp [newlyReady, addPermit, hwaiting, hkept, hrefused, hfirst]

theorem releases_signal (hdistinct : queue.callers.Nodup) : queue.Releases queue.signal :=
  releases_addPermit hdistinct (List.Subset.refl _) _

theorem releases_cancel (hdistinct : queue.callers.Nodup) (hgranted : popper ∈ queue.granted) :
    queue.Releases (queue.cancel popper) := by
  unfold cancel
  rw [if_pos (List.contains_iff_mem.mpr hgranted)]
  exact releases_addPermit hdistinct List.erase_subset _

theorem next?_cancel_of_mem_waiting (hdistinct : queue.callers.Nodup)
    (hwaits : popper ∈ queue.waiting) : queue.next? (.cancel popper) =
      some { queue with waiting := queue.waiting.erase popper } := by
  have hready := isReady_of_mem_waiting hdistinct hwaits
  have hother : popper ∉ queue.granted ∧ popper ∉ queue.refused := by
    rwa [← Bool.not_eq_true, isReady_iff, List.mem_append, not_or] at hready
  simp [next?, step?, isKnown, cancel, hwaits, hother, List.erase_of_not_mem]

/-! ### Everybody else is left alone -/

theorem isReady_of_subset (hgranted : after.granted ⊆ queue.granted)
    (hrefused : after.refused ⊆ queue.refused) (hready : queue.isReady popper = false) :
    after.isReady popper = false := by
  rw [← Bool.not_eq_true, isReady_iff, List.mem_append, not_or] at hready ⊢
  exact ⟨fun hmem ↦ hready.1 (hgranted hmem), fun hmem ↦ hready.2 (hrefused hmem)⟩

theorem isReady_ask_of_ne {other : Nat} (hother : other ≠ popper)
    (hready : queue.isReady other = false) : (queue.ask popper).isReady other = false := by
  rw [← Bool.not_eq_true, isReady_iff] at hready ⊢
  unfold ask
  split
  · simpa [hother] using hready
  · split
    · exact hready
    · simpa [hother] using hready

/-- While the queue is open a popper that waits is woken only by a permit that comes. -/
theorem isReady_eq_false_of_next? (hdistinct : queue.callers.Nodup)
    (hnext : queue.next? step = some after) (hopen : after.closed = false)
    (hsignal : step ≠ .signal) (hcancel : ∀ popper ∈ queue.granted, step ≠ .cancel popper)
    {other : Nat} (hwaits : other ∈ queue.waiting) : after.isReady other = false := by
  have hready := isReady_of_mem_waiting hdistinct hwaits
  have hcaller : other ∈ queue.callers := List.mem_append_left _ hwaits
  have hmoves := moves_of_next? hnext
  generalize queue.outcome? step = outcome at hmoves
  cases hmoves with
  | store item => exact hready
  | signal hpending => exact absurd rfl hsignal
  | ask popper =>
    refine isReady_ask_of_ne ?_ hready
    rintro rfl
    exact not_mem_callers_of_asks (.inl rfl) hnext hcaller
  | askNow popper hfree =>
    refine isReady_ask_of_ne ?_ hready
    rintro rfl
    exact not_mem_callers_of_asks (.inr rfl) hnext hcaller
  | turnAway popper => exact hready
  | take popper _ =>
    refine isReady_of_subset List.erase_subset ?_ hready
    dsimp only [take]
    split
    · exact List.Subset.refl _
    · exact List.erase_subset
  | cancel popper =>
    have hgranted : ¬ queue.granted.contains popper = true := fun hmem ↦
      hcancel popper (List.contains_iff_mem.mp hmem) rfl
    rw [cancel, if_neg hgranted]
    exact isReady_of_subset (List.Subset.refl queue.granted) List.erase_subset hready
  | close => cases hopen

theorem mem_granted_addPermit (hgranted : popper ∈ queue.granted) :
    popper ∈ queue.addPermit.granted := by
  unfold addPermit
  split
  · exact hgranted
  · exact List.mem_append_left _ hgranted

theorem mem_granted_ask (hgranted : popper ∈ queue.granted) (other : Nat) :
    popper ∈ (queue.ask other).granted := by
  unfold ask
  split
  · exact hgranted
  · split
    · exact hgranted
    · exact List.mem_append_left _ hgranted

/-- A popper that was woken is ready until it goes on or gives up. -/
theorem mem_granted_of_next? (hnext : queue.next? step = some after)
    (hgranted : popper ∈ queue.granted) (htake : step ≠ .take popper)
    (hcancel : step ≠ .cancel popper) : popper ∈ after.granted := by
  have hmoves := moves_of_next? hnext
  generalize queue.outcome? step = outcome at hmoves
  cases hmoves with
  | store item => exact hgranted
  | signal hpending => exact mem_granted_addPermit hgranted
  | ask other => exact mem_granted_ask hgranted other
  | askNow other hfree => exact mem_granted_ask hgranted other
  | turnAway other => exact hgranted
  | take other _ =>
    have hother : popper ≠ other := fun hsame ↦ htake (by rw [hsame])
    exact (List.mem_erase_of_ne hother).mpr hgranted
  | cancel other =>
    have hother : popper ≠ other := fun hsame ↦ hcancel (by rw [hsame])
    unfold cancel
    split
    · exact mem_granted_addPermit ((List.mem_erase_of_ne hother).mpr hgranted)
    · exact hgranted
  | close => exact hgranted

/-! ### Permits of a whole run -/

def Step.isSignal : Step α → Bool
  | .signal => true
  | _ => false

/-- How many pushes of a run are over. -/
def signals (history : List (Queue α × Step α)) : Nat :=
  history.countP fun entry ↦ entry.2.isSignal

theorem unsignalled_cancel (queue : Queue α) (popper : Nat) :
    (queue.cancel popper).unsignalled = queue.unsignalled := by
  unfold cancel
  split
  · exact unsignalled_addPermit _
  · rfl

/-- A push is under way from its first half to its second. -/
theorem Moves.unsignalled_eq {outcome : Option (Nat × Option α)}
    (hmoves : queue.Moves step outcome after) :
    after.unsignalled + step.isSignal.toNat =
      queue.unsignalled + step.pushed?.toList.length := by
  cases hmoves with
  | store item => rfl
  | signal hpending =>
    have hsame : queue.signal.unsignalled = queue.unsignalled - 1 := unsignalled_addPermit _
    change queue.signal.unsignalled + 1 = queue.unsignalled
    omega
  | ask popper => exact unsignalled_ask queue popper
  | askNow popper hfree => exact unsignalled_ask queue popper
  | turnAway popper => rfl
  | take popper hready => rfl
  | cancel popper => exact unsignalled_cancel queue popper
  | close => rfl

theorem signals_add_unsignalled (run : Run next? ({} : Queue α) history queue) :
    signals history + queue.unsignalled = (pushes history).length := by
  induction run with
  | start => rfl
  | @step history before after step run possible ih =>
    have hunsignalled := (moves_of_next? possible).unsignalled_eq
    have hsignals : signals (history ++ [(before, step)]) =
        signals history + step.isSignal.toNat := by
      unfold signals
      cases hstep : step.isSignal <;> simp [List.countP_append, hstep]
    rw [hsignals, pushes, Run.observed_append_singleton, List.length_append, ← pushes]
    omega

/-- Who holds a permit finds an item in front. -/
theorem outcome?_take_of_granted (hbalanced : queue.Balanced) (hgranted : popper ∈ queue.granted) :
    ∃ item rest, queue.items = item :: rest ∧
      queue.outcome? (.take popper) = some (popper, some item) := by
  have hcontains : queue.granted.contains popper = true := List.contains_iff_mem.mpr hgranted
  have hready : queue.isReady popper = true := by rw [isReady, hcontains, Bool.true_or]
  obtain ⟨item, rest, hitems⟩ := List.exists_cons_of_ne_nil (hbalanced.items_ne_nil hcontains)
  refine ⟨item, rest, hitems, ?_⟩
  simp [outcome?, step?, hready, take, hitems]

/-- What is woken, and by whom, at a queue that was never closed. -/
structure Wakes (history : List (Queue α × Step α)) (queue : Queue α) : Prop where
  /-- An item in the queue stands for a free permit, for one that a popper holds, or for one that a
  push has still to add. -/
  items_eq : queue.items.length = queue.permits + queue.granted.length + queue.unsignalled
  /-- Where a permit is free, nobody waits. -/
  waiting_eq : 0 < queue.permits → queue.waiting = []
  /-- A push under way can go on, and wakes one popper. -/
  pushed : queue.unsignalled ≠ 0 →
    queue.next? .signal = some queue.signal ∧ queue.Releases queue.signal
  /-- A popper that holds a permit can give up, is gone, and wakes one popper. -/
  passed : ∀ popper ∈ queue.granted,
    queue.next? (.cancel popper) = some (queue.cancel popper) ∧
      queue.Releases (queue.cancel popper) ∧ (queue.cancel popper).isKnown popper = false
  /-- A popper that waits can give up, and nothing else changes. -/
  withdrawn : ∀ popper ∈ queue.waiting, queue.next? (.cancel popper) =
    some { queue with waiting := queue.waiting.erase popper }
  /-- Nothing else wakes a popper. -/
  undisturbed : ∀ step after, queue.next? step = some after → after.closed = false →
    step ≠ .signal → (∀ popper ∈ queue.granted, step ≠ .cancel popper) →
      ∀ popper ∈ queue.waiting, after.isReady popper = false
  /-- A popper that was woken holds its permit until it goes on or gives up. -/
  held : ∀ popper ∈ queue.granted, ∀ step after, queue.next? step = some after →
    step ≠ .take popper → step ≠ .cancel popper → popper ∈ after.granted
  /-- It takes an item when it goes on. -/
  found : ∀ popper ∈ queue.granted, ∃ item rest, queue.items = item :: rest ∧
    queue.outcome? (.take popper) = some (popper, some item)
  /-- Every push that is over has paid for an item that was taken, for one that is about to be, or
  for a free permit. -/
  spent : signals history = (removals history).length + queue.granted.length + queue.permits

/-- No wake-up is missed and none is doubled in any run, whoever pushes, pops or gives up. -/
theorem wakes_of_run (run : Run next? ({} : Queue α) history queue)
    (hopen : queue.closed = false) : Wakes history queue := by
  have hbalanced := (sound run).balanced hopen
  have hdistinct := nodup_callers run
  refine ⟨hbalanced.items_eq, fun hfree ↦ hbalanced.waiting_eq (Nat.ne_of_gt hfree), ?_, ?_, ?_,
    ?_, ?_, ?_, ?_⟩
  · intro hpending
    exact ⟨by simp [next?, step?, hpending], releases_signal hdistinct⟩
  · intro popper hgranted
    have hready := isReady_iff.mpr (List.mem_append_left queue.refused hgranted)
    exact ⟨by simp [next?, step?, isKnown, hready], releases_cancel hdistinct hgranted,
      isKnown_cancel hdistinct popper⟩
  · exact fun popper hwaits ↦ next?_cancel_of_mem_waiting hdistinct hwaits
  · intro step after hnext hopen hsignal hcancel popper hwaits
    exact isReady_eq_false_of_next? hdistinct hnext hopen hsignal hcancel hwaits
  · intro popper hgranted step after hnext htake hcancel
    exact mem_granted_of_next? hnext hgranted htake hcancel
  · exact fun popper hgranted ↦ outcome?_take_of_granted hbalanced hgranted
  · have hsignals := signals_add_unsignalled run
    have hitems := hbalanced.items_eq
    have hpushes := congrArg List.length (removals_append_items run)
    rw [List.length_append] at hpushes
    omega

/-- Four pops wait. The first is woken and gives up, which wakes the second; the third gives up
before anybody wakes it. In the end the fourth holds a permit, a fifth waits, and one push is between
its halves when a pop that does not wait is turned away. -/
def crowdedSteps : List (Step Nat) :=
  [.ask 1, .ask 2, .ask 3, .ask 4, .store 7, .signal, .cancel 1, .cancel 3, .store 8, .signal,
    .take 2, .ask 5, .store 9, .askNow 6]

theorem wakes_of_crowdedSteps : ∃ (history : List (Queue Nat × Step Nat)) (queue : Queue Nat),
    Run next? {} history queue ∧ queue.closed = false ∧
      (queue.unsignalled = 1 ∧ queue.granted = [4] ∧ queue.waiting = [5]) ∧
        Wakes history queue := by
  have hfollow : (Run.follow? next? ({} : Queue Nat) crowdedSteps).map
      (fun taken ↦ (taken.2.closed, taken.2.unsignalled, taken.2.granted, taken.2.waiting)) =
        some (false, 1, [4], [5]) := by
    decide
  obtain ⟨⟨history, queue⟩, htaken, hreached⟩ := Option.map_eq_some_iff.mp hfollow
  simp only [Prod.mk.injEq] at hreached
  obtain ⟨hopen, hplaces⟩ := hreached
  have run := Run.of_follow? htaken
  exact ⟨history, queue, run, hopen, hplaces, wakes_of_run run hopen⟩

end GelfCourier.Queue
