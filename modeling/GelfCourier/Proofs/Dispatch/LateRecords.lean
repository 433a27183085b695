import GelfCourier.Hook
import GelfCourier.Proofs.Dispatch.Conservation

/-!
Records that come too late. Pushes are never refused, so a record may come when the queue is closed
and the last worker has left; nobody takes it, and it stays in the queue. Whatever came before has
been sent and counted.
-/

set_option autoImplicit false

namespace GelfCourier.Dispatch

variable {ρ : Type}

/-- No worker is left. -/
def isDeserted (dispatch : Dispatch ρ) : Bool :=
  dispatch.workers.all Worker.hasExited

/-- The record that a step pushes when no worker is left. -/
def late? (dispatch : Dispatch ρ) (step : Step ρ) : Option ρ :=
  if dispatch.isDeserted then (dispatch.event? step).bind Event.stored? else none

/-- The records pushed when no worker was left. -/
def late (history : List (Dispatch ρ × Step ρ)) : List ρ :=
  Run.observed late? history

section Workers

variable {dispatch : Dispatch ρ} {w : Nat} {worker : Worker ρ}

theorem mem_workers (hworker : dispatch.worker w = worker) (hlive : worker.hasExited = false) :
    worker ∈ dispatch.workers := by
  obtain ⟨before, behind, hworkers, -⟩ := exists_split hworker hlive
  rw [hworkers]
  exact List.mem_append_right _ List.mem_cons_self

theorem isDeserted_eq_false_of_mem (hmem : worker ∈ dispatch.workers)
    (hlive : worker.hasExited = false) : dispatch.isDeserted = false := by
  refine Bool.eq_false_iff.mpr fun hdeserted ↦ ?_
  rw [List.all_eq_true.mp hdeserted worker hmem] at hlive
  cases hlive

theorem isDeserted_eq_false (hworker : dispatch.worker w = worker)
    (hlive : worker.hasExited = false) : dispatch.isDeserted = false :=
  isDeserted_eq_false_of_mem (mem_workers hworker hlive) hlive

theorem mem_setWorker (hworker : dispatch.worker w = worker) (hlive : worker.hasExited = false)
    (new : Worker ρ) : new ∈ (dispatch.setWorker w new).workers := by
  obtain ⟨before, behind, hworkers, rfl⟩ := exists_split hworker hlive
  rw [workers_setWorker hworkers]
  exact List.mem_append_right _ List.mem_cons_self

end Workers

/-! ### Before and after the last worker leaves -/

/-- Workers leave a closed queue only, and the last of them leaves it empty. -/
structure Watched (late : List ρ) (dispatch : Dispatch ρ) : Prop where
  sound : dispatch.queue.Sound
  closed : .stopped ∈ dispatch.workers → dispatch.queue.closed = true
  unbroken : .broken ∉ dispatch.workers
  items_eq : dispatch.isDeserted = true → dispatch.queue.items = late
  late_eq : dispatch.isDeserted = false → late = []

namespace Watched

variable {late : List ρ} {dispatch after : Dispatch ρ} {w : Nat} {worker : Worker ρ}
  {event : Option (Event ρ)}

theorem start (workers : Nat) : Watched [] (Dispatch.start workers : Dispatch ρ) := by
  have hidle : ∀ worker ∈ (Dispatch.start workers : Dispatch ρ).workers, worker = .idle :=
    fun worker hworker ↦ List.eq_of_mem_replicate hworker
  refine ⟨.empty, fun hstopped ↦ ?_, fun hbroken ↦ ?_, fun _ ↦ rfl, fun _ ↦ rfl⟩
  · cases hidle _ hstopped
  · cases hidle _ hbroken

/-- Only the queue changes, and no item comes or goes once nobody is left. -/
theorem withQueue (h : Watched late dispatch) {queue : Queue ρ} (hsound : queue.Sound)
    (hclosed : dispatch.queue.closed = true → queue.closed = true)
    (hitems : dispatch.isDeserted = true → queue.items = dispatch.queue.items) :
    Watched late { dispatch with queue } where
  sound := hsound
  closed := fun hstopped ↦ hclosed (h.closed hstopped)
  unbroken := h.unbroken
  items_eq := fun hdeserted ↦ (hitems hdeserted).trans (h.items_eq hdeserted)
  late_eq := h.late_eq

/-- Only counters or calls change. -/
theorem of_eq (h : Watched late dispatch) (hqueue : after.queue = dispatch.queue)
    (hworkers : after.workers = dispatch.workers) : Watched late after := by
  have hsame : after.isDeserted = dispatch.isDeserted := congrArg (·.all Worker.hasExited) hworkers
  refine ⟨hqueue ▸ h.sound, ?_, hworkers ▸ h.unbroken, ?_, hsame ▸ h.late_eq⟩
  · rw [hqueue, hworkers]
    exact h.closed
  · rw [hqueue, hsame]
    exact h.items_eq

theorem store (h : Watched late dispatch) (record : ρ) :
    Watched (late ++ if dispatch.isDeserted then [record] else [])
      { dispatch with queue := dispatch.queue.store record } := by
  refine ⟨h.sound.store record, h.closed, h.unbroken, fun hdeserted ↦ ?_, fun hbusy ↦ ?_⟩
  · change dispatch.isDeserted = true at hdeserted
    rw [if_pos hdeserted, ← h.items_eq hdeserted]
    rfl
  · change dispatch.isDeserted = false at hbusy
    rw [hbusy, h.late_eq hbusy]
    rfl

/-- Assumes: a worker that is there, before and after. -/
theorem setWorker (h : Watched late dispatch) (hworker : dispatch.worker w = worker)
    (hlive : worker.hasExited = false) {new : Worker ρ} (hnew : new.hasExited = false) :
    Watched late (dispatch.setWorker w new) := by
  have hbusy := isDeserted_eq_false hworker hlive
  have hstill := isDeserted_eq_false_of_mem
    (mem_setWorker hworker hlive new) hnew
  refine ⟨h.sound, fun hstopped ↦ ?_, fun hbroken ↦ ?_, fun hdeserted ↦ ?_,
    fun _ ↦ h.late_eq hbusy⟩
  · rcases List.mem_or_eq_of_mem_set hstopped with hold | rfl
    · exact h.closed hold
    · cases hnew
  · rcases List.mem_or_eq_of_mem_set hbroken with hold | rfl
    · exact h.unbroken hold
    · cases hnew
  · rw [hstill] at hdeserted
    cases hdeserted

/-- A worker finds nothing at the front and leaves. -/
theorem stop (h : Watched late dispatch) (hasking : dispatch.worker w = .asking)
    (hready : dispatch.queue.isReady w = true) (hempty : dispatch.queue.items = []) :
    Watched late ({ dispatch with queue := (dispatch.queue.take w).1 }.setWorker w .stopped) := by
  have hlate : late = [] := h.late_eq (isDeserted_eq_false hasking rfl)
  have hclosed := h.sound.closed_of_items_eq_nil hready hempty
  refine ⟨h.sound.take hready, fun _ ↦ hclosed, fun hbroken ↦ ?_, fun _ ↦ ?_, fun _ ↦ hlate⟩
  · rcases List.mem_or_eq_of_mem_set hbroken with hold | hnew
    · exact h.unbroken hold
    · cases hnew
  · change dispatch.queue.items.tail = late
    rw [hempty, hlate]
    rfl

/-- Assumes: a step in which no send panics. -/
theorem moves (h : Watched late dispatch) (hmoves : dispatch.Moves event after)
    (hcalm : ∀ w record, event ≠ some (.ended w record .panicked)) :
    Watched (late ++ (if dispatch.isDeserted then event.bind Event.stored? else none).toList)
      after := by
  have hquiet : event.bind Event.stored? = none →
      late ++ (if dispatch.isDeserted then event.bind Event.stored? else none).toList = late := by
    intro hnone
    rw [hnone, ite_self, Option.toList_none, List.append_nil]
  cases hmoves with
  | store record =>
    have hstored := h.store record
    cases hdeserted : dispatch.isDeserted <;> rw [hdeserted] at hstored <;> exact hstored
  | signal hpending =>
    rw [hquiet rfl]
    exact h.withQueue (h.sound.signal hpending)
      (fun hclosed ↦ (Queue.closed_addPermit _).trans hclosed)
      fun _ ↦ Queue.items_addPermit _
  | ask w hidle =>
    rw [hquiet rfl]
    have hasked := h.withQueue (h.sound.ask w) (fun hclosed ↦ (Queue.closed_ask _ w).trans hclosed)
      fun _ ↦ Queue.items_ask _ w
    exact hasked.setWorker hidle rfl rfl
  | start w record hasking hready hfront =>
    rw [hquiet rfl]
    have htaken := h.withQueue (h.sound.take hready) id fun hdeserted ↦ by
      rw [isDeserted_eq_false hasking rfl] at hdeserted
      cases hdeserted
    exact htaken.setWorker hasking rfl rfl
  | stop w hasking hready hempty =>
    rw [hquiet rfl]
    exact h.stop hasking hready hempty
  | deliver w record hsending =>
    rw [hquiet rfl]
    have hcounted : Watched late { dispatch with delivered := dispatch.delivered + 1 } :=
      h.of_eq rfl rfl
    exact hcounted.setWorker hsending rfl rfl
  | fail w record hsending =>
    rw [hquiet rfl]
    have hcounted : Watched late { dispatch with failed := dispatch.failed + 1 } :=
      h.of_eq rfl rfl
    exact hcounted.setWorker hsending rfl rfl
  | crash w record hsending => exact absurd rfl (hcalm w record)
  | call calls =>
    rw [hquiet rfl]
    exact h.of_eq rfl rfl
  | close calls =>
    rw [hquiet rfl]
    exact ⟨.close _, fun _ ↦ rfl, h.unbroken, h.items_eq, h.late_eq⟩

end Watched

/-! ### Whole runs -/

section Runs

variable {workers : Nat} {history : List (Dispatch ρ × Step ρ)} {dispatch : Dispatch ρ}

theorem watched (run : Run step? (start workers) history dispatch) (hcalm : IsCalm history) :
    Watched (late history) dispatch := by
  induction run with
  | start => exact .start workers
  | @step history before after step run possible ih =>
    have hearlier : IsCalm history := fun entry hentry ↦ hcalm entry (List.mem_append_left _ hentry)
    have hlast : step.isCrash = false :=
      hcalm (before, step) (List.mem_append_right _ List.mem_cons_self)
    rw [late, Run.observed_append_singleton]
    exact (ih hearlier).moves (moves_of_step? possible) (event?_ne_panicked hlast)

/-- Assumes: a dispatch whose workers have all left. They stay away, and the queue keeps what it
has. -/
theorem Moves.of_isDeserted {after : Dispatch ρ} {event : Option (Event ρ)}
    (hmoves : dispatch.Moves event after) (hdeserted : dispatch.isDeserted = true) :
    after.isDeserted = true ∧ dispatch.queue.items <+: after.queue.items := by
  have hgone : ∀ w worker, dispatch.worker w = worker → worker.hasExited = false → False := by
    intro w worker hworker hlive
    rw [isDeserted_eq_false hworker hlive] at hdeserted
    cases hdeserted
  cases hmoves with
  | store record => exact ⟨hdeserted, List.prefix_append _ _⟩
  | signal hpending =>
    have hsame : dispatch.queue.signal.items = dispatch.queue.items := Queue.items_addPermit _
    exact ⟨hdeserted, [], (List.append_nil _).trans hsame.symm⟩
  | ask w hidle => exact (hgone w _ hidle rfl).elim
  | start w record hasking => exact (hgone w _ hasking rfl).elim
  | stop w hasking => exact (hgone w _ hasking rfl).elim
  | deliver w record hsending => exact (hgone w _ hsending rfl).elim
  | fail w record hsending => exact (hgone w _ hsending rfl).elim
  | crash w record hsending => exact (hgone w _ hsending rfl).elim
  | call calls => exact ⟨hdeserted, List.prefix_rfl⟩
  | close calls => exact ⟨hdeserted, List.prefix_rfl⟩

theorem inFlight_eq_nil_of_isDeserted (hdeserted : dispatch.isDeserted = true) :
    dispatch.inFlight = [] := by
  refine List.filterMap_eq_nil_iff.mpr fun worker hworker ↦ ?_
  have hexited := List.all_eq_true.mp hdeserted worker hworker
  cases worker <;> first | rfl | cases hexited

/-- A push is two steps of the dispatch. -/
theorem run_push {first : Dispatch ρ} (run : Run step? first history dispatch) (record : ρ) :
    ∃ longer, Run step? first longer (dispatch.push record) := by
  let between : Dispatch ρ := { dispatch with queue := dispatch.queue.store record }
  have hstored : dispatch.step? (.store record) = some between := rfl
  have hsignalled : between.step? .signal = some (dispatch.push record) := by
    have hpending : between.queue.unsignalled ≠ 0 := Nat.succ_ne_zero _
    simp only [step?, if_neg hpending]
    rfl
  exact ⟨_, (run.step hstored).step hsignalled⟩

theorem items_push (dispatch : Dispatch ρ) (record : ρ) :
    (dispatch.push record).queue.items = dispatch.queue.items ++ [record] :=
  Queue.items_addPermit _

end Runs

/-! ### Hooks whose workers have left -/

section Hooks

variable {workers : Nat} {history : List (Dispatch Record × Step Record)}
  {dispatch : Dispatch Record}

/-- What is left when all workers have. -/
structure Leftover (history : List (Dispatch Record × Step Record)) (dispatch : Dispatch Record) :
    Prop where
  closed : dispatch.queue.closed = true
  /-- Records that came before the last worker left have been sent, and the others have not. -/
  sent : (begun (events history)).map Prod.snd ++ late history = stored (events history)
  counted : dispatch.delivered + dispatch.failed = (begun (events history)).length
  /-- Records that came later are in the queue. -/
  pending : dispatch.queue.items = late history
  /-- They stay there. -/
  stuck : ∀ step after, dispatch.step? step = some after →
    after.isDeserted = true ∧ dispatch.queue.items <+: after.queue.items
  /-- The hook takes in every further record, too. -/
  accepted : ∀ (hook : Hook) (record : Record), hook.dispatch = some dispatch →
    ∃ after, hook.enqueue record = .ok after ∧ after.dispatch = some (dispatch.push record) ∧
      after.pending = hook.pending + 1

/-- When all workers have left, none of them by a panic, the queue holds the records that came later
and no others. -/
theorem leftover_of_run (run : Run step? (start workers) history dispatch) (hcalm : IsCalm history)
    (hdeserted : dispatch.isDeserted = true) : Leftover history dispatch := by
  have hwatched := watched run hcalm
  have hledger := ledger run
  have hpending := hwatched.items_eq hdeserted
  refine ⟨?_, hpending ▸ hledger.order, ?_, hpending,
    fun step after possible ↦ (moves_of_step? possible).of_isDeserted hdeserted, ?_⟩
  · -- There is at least one worker, and it did not leave by a panic.
    have hlength := length_workers_of_run run
    have hsome : 0 < dispatch.workers.length := by omega
    obtain ⟨worker, hworker⟩ := List.exists_mem_of_length_pos hsome
    have hexited := List.all_eq_true.mp hdeserted worker hworker
    cases worker with
    | stopped => exact hwatched.closed hworker
    | broken => exact absurd hworker hwatched.unbroken
    | idle => cases hexited
    | asking => cases hexited
    | sending record => cases hexited
  · have hplaces := hledger.places.length_eq
    have hended := (endedAs_perm (ne_panicked_of_isCalm hcalm)).length_eq
    rw [inFlight_eq_nil_of_isDeserted hdeserted, List.nil_append, List.length_map] at hplaces
    rw [List.length_append, ← hledger.delivered_eq, ← hledger.failed_eq] at hended
    omega
  · intro hook record hdispatch
    refine ⟨{ hook with dispatch := some (dispatch.push record) }, ?_, rfl, ?_⟩
    · unfold Hook.enqueue
      rw [hdispatch]
    · unfold Hook.pending Queue.length
      rw [hdispatch]
      simp only [items_push, List.length_append, List.length_singleton]

/-- The only worker sends a record and waits for the next; a call flushes the hook and closes it,
and the worker leaves. -/
def closingSteps (record : Record) : List (Step Record) :=
  [.store record, .signal, .ask 0, .take 0, .settle 0 true, .ask 0, .begin 1 .flushAndClose,
    .advance 1, .advance 1, .take 0, .advance 1, .advance 1, .advance 1]

theorem leftover_of_closingSteps : ∃ history dispatch,
    Run step? (start 1) history dispatch ∧ IsCalm history ∧ dispatch.isDeserted = true ∧
      dispatch.delivered = 1 ∧ (late history).length = 1 ∧ Leftover history dispatch := by
  have hfollow : (Run.follow? step? (start 1) (closingSteps { level := .info, message := "a" } ++
      [.store { level := .info, message := "late" }, .signal])).map (fun taken ↦
        (taken.1.all fun entry ↦ !entry.2.isCrash, taken.2.isDeserted, taken.2.delivered,
          (late taken.1).length)) = some (true, true, 1, 1) := by
    decide
  obtain ⟨⟨history, dispatch⟩, htaken, hseen⟩ := Option.map_eq_some_iff.mp hfollow
  simp only [Prod.mk.injEq, List.all_eq_true, Bool.not_eq_true'] at hseen
  obtain ⟨hcalm, hdeserted, hdelivered, hlate⟩ := hseen
  have run := Run.of_follow? htaken
  exact ⟨history, dispatch, run, hcalm, hdeserted, hdelivered, hlate,
    leftover_of_run run hcalm hdeserted⟩

/-- A hook that was flushed and closed, and whose worker has left, takes in one more record, and the
record stays in the queue. -/
theorem enqueue_of_deserted : ∃ (history : List (Dispatch Record × Step Record))
    (dispatch : Dispatch Record) (after : Hook) (longer : List (Dispatch Record × Step Record))
    (left : Dispatch Record),
    Run step? (start 1) history dispatch ∧ dispatch.isDeserted = true ∧
      dispatch.calls.map Call.phase = [.finished] ∧
      (⟨⟨"unit-test", .empty⟩, some dispatch⟩ : Hook).enqueue
        { level := .info, message := "late" } = .ok after ∧
      after.dispatch = some left ∧ Run step? (start 1) longer left ∧ left.isDeserted = true ∧
      left.queue.items ≠ [] := by
  have hfollow : (Run.follow? step? (start 1)
      (closingSteps { level := .info, message := "a" })).map (fun taken ↦
        (taken.2.isDeserted, taken.2.calls.map Call.phase)) = some (true, [.finished]) := by
    decide
  obtain ⟨⟨history, dispatch⟩, htaken, hseen⟩ := Option.map_eq_some_iff.mp hfollow
  obtain ⟨hdeserted, hphases⟩ := Prod.mk.inj hseen
  have run := Run.of_follow? htaken
  obtain ⟨longer, hlonger⟩ := run_push run { level := .info, message := "late" }
  refine ⟨history, dispatch, _, longer, _, run, hdeserted, hphases, rfl, rfl, hlonger, hdeserted,
    ?_⟩
  rw [items_push]
  exact List.append_ne_nil_of_right_ne_nil _ (List.cons_ne_nil _ _)

end Hooks

end GelfCourier.Dispatch
