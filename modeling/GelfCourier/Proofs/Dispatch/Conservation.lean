import GelfCourier.Proofs.Dispatch.Moves

/-!
Where the records of a dispatch are. However pushes, workers, flushes and shutdowns are interleaved,
a record is in the queue, or one worker sends it, or its send is over and counted; records leave the
queue in the order in which they came, each for one send.
-/

set_option autoImplicit false

namespace GelfCourier.Dispatch

variable {ρ : Type}

/-! ### Records in a list of events -/

def Event.stored? : Event ρ → Option ρ
  | .stored record => some record
  | _ => none

/-- The worker that begins a send, and its record. -/
def Event.begun? : Event ρ → Option (Nat × ρ)
  | .begun w record => some (w, record)
  | _ => none

/-- The worker whose send is over, its record, and how it ended. -/
def Event.ended? : Event ρ → Option ((Nat × ρ) × SendEnd)
  | .ended w record ending => some ((w, record), ending)
  | _ => none

def stored (events : List (Event ρ)) : List ρ :=
  events.filterMap Event.stored?

def begun (events : List (Event ρ)) : List (Nat × ρ) :=
  events.filterMap Event.begun?

def ended (events : List (Event ρ)) : List ((Nat × ρ) × SendEnd) :=
  events.filterMap Event.ended?

theorem filterMap_append_toList {β : Type} (see? : Event ρ → Option β) (events : List (Event ρ))
    (event : Option (Event ρ)) : (events ++ event.toList).filterMap see? =
      events.filterMap see? ++ (event.bind see?).toList := by
  rw [List.filterMap_append]
  cases event with
  | none => rfl
  | some event => cases hseen : see? event <;> simp [hseen]

theorem stored_append (events : List (Event ρ)) (event : Option (Event ρ)) :
    stored (events ++ event.toList) = stored events ++ (event.bind Event.stored?).toList :=
  filterMap_append_toList Event.stored? events event

theorem begun_append (events : List (Event ρ)) (event : Option (Event ρ)) :
    begun (events ++ event.toList) = begun events ++ (event.bind Event.begun?).toList :=
  filterMap_append_toList Event.begun? events event

theorem ended_append (events : List (Event ρ)) (event : Option (Event ρ)) :
    ended (events ++ event.toList) = ended events ++ (event.bind Event.ended?).toList :=
  filterMap_append_toList Event.ended? events event

/-! ### Sends -/

/-- The records of one worker's sends. -/
def sendsOf (w : Nat) (sends : List (Nat × ρ)) : List ρ :=
  (sends.filter fun send ↦ send.1 = w).map Prod.snd

/-- The records whose sends ended in one way. -/
def endedAs (ending : SendEnd) (ended : List ((Nat × ρ) × SendEnd)) : List ρ :=
  (ended.filter fun entry ↦ entry.2 = ending).map fun entry ↦ entry.1.2

theorem sendsOf_append_singleton (w : Nat) (sends : List (Nat × ρ)) (other : Nat) (record : ρ) :
    sendsOf w (sends ++ [(other, record)]) =
      sendsOf w sends ++ if w = other then [record] else [] := by
  unfold sendsOf
  rw [List.filter_append, List.map_append]
  by_cases hother : w = other
  · simp [hother]
  · simp [hother, Ne.symm hother]

theorem length_endedAs_append_singleton (ending : SendEnd) (ended : List ((Nat × ρ) × SendEnd))
    (send : Nat × ρ) (last : SendEnd) :
    (endedAs ending (ended ++ [(send, last)])).length =
      (endedAs ending ended).length + if last = ending then 1 else 0 := by
  unfold endedAs
  rw [List.filter_append, List.map_append, List.length_append]
  by_cases hlast : last = ending <;> simp [hlast]

/-- Sends that did not panic were delivered or failed. -/
theorem endedAs_perm {ended : List ((Nat × ρ) × SendEnd)}
    (hcalm : ∀ entry ∈ ended, entry.2 ≠ .panicked) :
    (ended.map fun entry ↦ entry.1.2).Perm
      (endedAs .delivered ended ++ endedAs .failed ended) := by
  have hfailed : ∀ entry ∈ ended,
      (!decide (entry.2 = .delivered)) = decide (entry.2 = .failed) := by
    intro entry hentry
    have hpanicked := hcalm entry hentry
    cases hending : entry.2 with
    | delivered => rfl
    | failed => rfl
    | panicked => exact absurd hending hpanicked
  unfold endedAs
  rw [← List.map_append, ← List.filter_congr hfailed]
  exact (List.filter_append_perm _ _).symm.map _

/-! ### The books of a dispatch -/

/-- What was pushed, the sends begun and those that are over agree with where records are now. -/
structure Ledger (stored : List ρ) (begun : List (Nat × ρ)) (ended : List ((Nat × ρ) × SendEnd))
    (dispatch : Dispatch ρ) : Prop where
  order : begun.map Prod.snd ++ dispatch.queue.items = stored
  /-- A worker ends one send before it begins the next. -/
  inTurn : ∀ w, sendsOf w begun =
    sendsOf w (ended.map Prod.fst) ++ (dispatch.worker w).record?.toList
  places : (begun.map Prod.snd).Perm (dispatch.inFlight ++ ended.map fun entry ↦ entry.1.2)
  delivered_eq : dispatch.delivered = (endedAs .delivered ended).length
  failed_eq : dispatch.failed = (endedAs .failed ended).length
  serial : dispatch.workers.length ≤ 1 →
    begun.map Prod.snd = (ended.map fun entry ↦ entry.1.2) ++ dispatch.inFlight

namespace Ledger

variable {stored : List ρ} {begun : List (Nat × ρ)} {ended : List ((Nat × ρ) × SendEnd)}
  {dispatch after : Dispatch ρ} {w : Nat} {worker : Worker ρ} {record : ρ}

theorem start (workers : Nat) : Ledger [] [] [] (Dispatch.start workers : Dispatch ρ) := by
  have hidle : ∀ w, ((Dispatch.start workers : Dispatch ρ).worker w).record? = none := by
    intro w
    unfold Dispatch.worker Dispatch.start
    rw [List.getD_eq_getElem?_getD, List.getElem?_replicate]
    split <;> rfl
  have hnone : (Dispatch.start workers : Dispatch ρ).inFlight = [] :=
    List.filterMap_eq_nil_iff.mpr fun worker hworker ↦ by
      rw [List.eq_of_mem_replicate hworker]
      rfl
  refine ⟨rfl, fun w ↦ ?_, ?_, rfl, rfl, fun _ ↦ hnone.symm⟩
  · rw [hidle]
    rfl
  · rw [hnone]
    exact .refl _

/-- Only the queue or the calls change, and no item comes or goes. -/
theorem of_eq (h : Ledger stored begun ended dispatch)
    (hitems : after.queue.items = dispatch.queue.items)
    (hworkers : after.workers = dispatch.workers)
    (hdelivered : after.delivered = dispatch.delivered)
    (hfailed : after.failed = dispatch.failed) : Ledger stored begun ended after := by
  have hinFlight : after.inFlight = dispatch.inFlight := by
    unfold inFlight
    rw [hworkers]
  refine ⟨?_, fun w ↦ ?_, ?_, hdelivered.trans h.delivered_eq, hfailed.trans h.failed_eq, ?_⟩
  · rw [hitems]
    exact h.order
  · unfold Dispatch.worker
    rw [hworkers]
    exact h.inTurn w
  · rw [hinFlight]
    exact h.places
  · rw [hinFlight, hworkers]
    exact h.serial

theorem store (h : Ledger stored begun ended dispatch) (record : ρ) :
    Ledger (stored ++ [record]) begun ended
      { dispatch with queue := dispatch.queue.store record } where
  order := by
    rw [← h.order, List.append_assoc]
    rfl
  inTurn := h.inTurn
  places := h.places
  delivered_eq := h.delivered_eq
  failed_eq := h.failed_eq
  serial := h.serial

/-- Assumes: a worker that does not send, before and after. -/
theorem setWorker (h : Ledger stored begun ended dispatch) (hworker : dispatch.worker w = worker)
    (hlive : worker.hasExited = false) (hold : worker.record? = none) {new : Worker ρ}
    (hnew : new.record? = none) : Ledger stored begun ended (dispatch.setWorker w new) := by
  have hinFlight := inFlight_setWorker hworker hlive hold hnew
  refine ⟨h.order, fun other ↦ ?_, ?_, h.delivered_eq, h.failed_eq, ?_⟩
  · have hrecord : ((dispatch.setWorker w new).worker other).record? =
        (dispatch.worker other).record? := by
      rw [worker_setWorker (hworker ▸ hlive)]
      by_cases hother : other = w
      · rw [if_pos hother, hother, hworker, hold, hnew]
      · rw [if_neg hother]
    rw [hrecord]
    exact h.inTurn other
  · rw [hinFlight]
    exact h.places
  · rw [hinFlight, length_workers_setWorker]
    exact h.serial

/-- The front of the queue goes to a worker. -/
theorem begin (h : Ledger stored begun ended dispatch) (hasking : dispatch.worker w = .asking)
    (hfront : dispatch.queue.items = record :: dispatch.queue.items.tail) :
    Ledger stored (begun ++ [(w, record)]) ended
      ({ dispatch with queue := (dispatch.queue.take w).1 }.setWorker w (.sending record)) where
  order := by
    have horder := h.order
    rw [hfront] at horder
    rw [List.map_append, List.append_assoc]
    exact horder
  inTurn := by
    intro other
    rw [sendsOf_append_singleton, h.inTurn other]
    have hset := worker_setWorker (by rw [hasking]; rfl) (.sending record) other
    change _ = _ ++ (((dispatch.setWorker w (.sending record)).worker other).record?).toList
    rw [hset]
    by_cases hother : other = w
    · rw [if_pos hother, if_pos hother, hother, hasking]
      simp [Worker.record?]
    · rw [if_neg hother, if_neg hother, List.append_nil]
  places := by
    have hmore : (begun.map Prod.snd ++ [record]).Perm
        (record :: (dispatch.inFlight ++ ended.map fun entry ↦ entry.1.2)) :=
      (List.perm_append_singleton _ _).trans (h.places.cons _)
    rw [List.map_append]
    exact hmore.trans ((inFlight_perm_of_start hasking record).symm.append_right _)
  delivered_eq := h.delivered_eq
  failed_eq := h.failed_eq
  serial := by
    intro hone
    rw [length_workers_setWorker] at hone
    -- The only worker asks, so no send is under way.
    obtain ⟨hworkers, rfl⟩ := workers_eq_singleton hone hasking rfl
    have hserial := h.serial hone
    unfold inFlight Dispatch.setWorker
    unfold inFlight at hserial
    rw [hworkers] at hserial ⊢
    rw [List.map_append, hserial, List.append_assoc]
    rfl

/-- A worker's send is over, and it is counted or panics. -/
theorem finish (h : Ledger stored begun ended dispatch)
    (hsending : dispatch.worker w = .sending record) (ending : SendEnd) {delivered failed : Nat}
    (hdelivered : delivered = dispatch.delivered + if ending = .delivered then 1 else 0)
    (hfailed : failed = dispatch.failed + if ending = .failed then 1 else 0) {new : Worker ρ}
    (hnew : new.record? = none) :
    Ledger stored begun (ended ++ [((w, record), ending)])
      ({ dispatch with delivered, failed }.setWorker w new) where
  order := h.order
  inTurn := by
    intro other
    rw [List.map_append, List.map_singleton, sendsOf_append_singleton, h.inTurn other]
    have hset := worker_setWorker (by rw [hsending]; rfl) new other
    change _ = _ ++ (((dispatch.setWorker w new).worker other).record?).toList
    rw [hset]
    by_cases hother : other = w
    · rw [if_pos hother, if_pos hother, hother, hsending, hnew]
      simp [Worker.record?]
    · rw [if_neg hother, if_neg hother, List.append_nil]
  places := by
    have hless : dispatch.inFlight.Perm (record :: (dispatch.setWorker w new).inFlight) :=
      inFlight_perm_of_end hsending hnew
    have hmoved : ((dispatch.setWorker w new).inFlight ++
        ((ended.map fun entry ↦ entry.1.2) ++ [record])).Perm
        (record :: ((dispatch.setWorker w new).inFlight ++ ended.map fun entry ↦ entry.1.2)) := by
      rw [← List.append_assoc]
      exact List.perm_append_singleton _ _
    rw [List.map_append]
    exact (h.places.trans (hless.append_right _)).trans hmoved.symm
  delivered_eq := by
    rw [length_endedAs_append_singleton, ← h.delivered_eq]
    exact hdelivered
  failed_eq := by
    rw [length_endedAs_append_singleton, ← h.failed_eq]
    exact hfailed
  serial := by
    intro hone
    rw [length_workers_setWorker] at hone
    obtain ⟨hworkers, rfl⟩ := workers_eq_singleton hone hsending rfl
    have hserial := h.serial hone
    have hnone : [new].filterMap Worker.record? = [] := by
      rw [List.filterMap_cons, hnew]
      rfl
    unfold inFlight Dispatch.setWorker
    unfold inFlight at hserial
    rw [hworkers] at hserial ⊢
    rw [hserial, List.map_append, List.append_assoc]
    change _ = _ ++ ([record] ++ [new].filterMap Worker.record?)
    rw [hnone]
    rfl

theorem moves {events : List (Event ρ)} {event : Option (Event ρ)}
    (h : Ledger (Dispatch.stored events) (Dispatch.begun events) (Dispatch.ended events) dispatch)
    (hmoves : dispatch.Moves event after) :
    Ledger (Dispatch.stored (events ++ event.toList)) (Dispatch.begun (events ++ event.toList))
      (Dispatch.ended (events ++ event.toList)) after := by
  rw [stored_append, begun_append, ended_append]
  cases hmoves <;>
    simp only [Option.bind_some, Option.bind_none, Event.stored?, Event.begun?, Event.ended?,
      Option.toList_some, Option.toList_none, List.append_nil]
  case store record => exact h.store record
  case signal hpending => exact h.of_eq (Queue.items_addPermit _) rfl rfl rfl
  case ask w hidle =>
    have hasked : Ledger (Dispatch.stored events) (Dispatch.begun events) (Dispatch.ended events)
        { dispatch with queue := dispatch.queue.ask w } :=
      h.of_eq (Queue.items_ask dispatch.queue w) rfl rfl rfl
    exact hasked.setWorker hidle rfl rfl rfl
  case start w record hasking hready hfront => exact h.begin hasking hfront
  case stop w hasking hready hempty =>
    have htaken : Ledger (Dispatch.stored events) (Dispatch.begun events) (Dispatch.ended events)
        { dispatch with queue := (dispatch.queue.take w).1 } :=
      h.of_eq (by simp [Queue.take, hempty]) rfl rfl rfl
    exact htaken.setWorker hasking rfl rfl rfl
  case deliver w record hsending => exact h.finish hsending .delivered rfl rfl rfl
  case fail w record hsending => exact h.finish hsending .failed rfl rfl rfl
  case crash w record hsending => exact h.finish hsending .panicked rfl rfl rfl
  case call calls => exact h.of_eq rfl rfl rfl rfl
  case close calls => exact h.of_eq rfl rfl rfl rfl

end Ledger

/-! ### Whole runs -/

section Runs

variable {workers : Nat} {history : List (Dispatch ρ × Step ρ)} {dispatch : Dispatch ρ}

theorem ledger (run : Run step? (start workers) history dispatch) :
    Ledger (stored (events history)) (begun (events history)) (ended (events history))
      dispatch := by
  induction run with
  | start => exact .start workers
  | step run possible ih =>
    rw [events_append_singleton]
    exact ih.moves (moves_of_step? possible)

theorem length_workers_of_run (run : Run step? (start workers) history dispatch) :
    dispatch.workers.length = max workers 1 := by
  refine Run.invariant (fun dispatch ↦ dispatch.workers.length = max workers 1) run
    List.length_replicate fun before step after hlength possible ↦ ?_
  exact (moves_of_step? possible).length_workers.trans hlength

/-- No send panics. -/
def IsCalm (history : List (Dispatch ρ × Step ρ)) : Prop :=
  ∀ entry ∈ history, entry.2.isCrash = false

theorem ne_panicked_of_isCalm (hcalm : IsCalm history) :
    ∀ entry ∈ ended (events history), entry.2 ≠ .panicked := by
  intro entry hentry hpanicked
  obtain ⟨event, hevent, hended⟩ := List.mem_filterMap.mp hentry
  obtain ⟨⟨before, step⟩, hstep, hseen⟩ := List.mem_filterMap.mp hevent
  cases event with
  | stored record => cases hended
  | begun w record => cases hended
  | ended w record ending =>
    cases hended
    subst hpanicked
    exact event?_ne_panicked (hcalm _ hstep) w record hseen

/-- Where the records of a run are, and how its sends went. -/
structure Conserved (workers : Nat) (history : List (Dispatch ρ × Step ρ))
    (dispatch : Dispatch ρ) : Prop where
  /-- A record is in the queue, or a worker sends it, or its send succeeded or failed. -/
  places : (stored (events history)).Perm (dispatch.queue.items ++ (dispatch.inFlight ++
    (endedAs .delivered (ended (events history)) ++ endedAs .failed (ended (events history)))))
  /-- Records leave the queue in the order of the pushes, and each is sent once. -/
  order : (begun (events history)).map Prod.snd ++ dispatch.queue.items = stored (events history)
  /-- The sends of a worker are over in the order in which it began them, but for the one that it is
  in the middle of. -/
  inTurn : ∀ w, sendsOf w (begun (events history)) =
    sendsOf w ((ended (events history)).map Prod.fst) ++ (dispatch.worker w).record?.toList
  delivered_eq : dispatch.delivered = (endedAs .delivered (ended (events history))).length
  failed_eq : dispatch.failed = (endedAs .failed (ended (events history))).length
  inFlight_le : dispatch.inFlight.length ≤ max workers 1
  /-- One worker sends one record after another, in the order of the pushes. -/
  serial : workers ≤ 1 → dispatch.inFlight.length ≤ 1 ∧
    ((ended (events history)).map fun entry ↦ entry.1.2) ++
      (dispatch.inFlight ++ dispatch.queue.items) = stored (events history)

/-- No record is lost, sent twice or miscounted in any run whose sends do not panic. -/
theorem conserved_of_run (run : Run step? (start workers) history dispatch)
    (hcalm : IsCalm history) : Conserved workers history dispatch := by
  have hledger := ledger run
  have hlength := length_workers_of_run run
  have hinFlight : dispatch.inFlight.length ≤ max workers 1 :=
    hlength ▸ List.length_filterMap_le _ _
  refine ⟨?_, hledger.order, hledger.inTurn, hledger.delivered_eq, hledger.failed_eq, hinFlight,
    fun hone ↦ ⟨by omega, ?_⟩⟩
  · have hended := endedAs_perm (ne_panicked_of_isCalm hcalm)
    rw [← hledger.order]
    exact (hledger.places.append_right _).trans
      (List.perm_append_comm.trans ((hended.append_left _).append_left _))
  · have hserial := hledger.serial (by omega)
    rw [← hledger.order, hserial, List.append_assoc]

/-- Two workers and four records. The second record is sent while the first is, and fails; the third
waits until a worker is free and is sent after the close, and the last is still queued. -/
def overlappingSteps : List (Step Nat) :=
  [.ask 0, .ask 1, .store 10, .store 11, .signal, .signal, .take 1, .take 0, .store 12,
    .settle 0 false, .begin 7 .shutdown, .advance 7, .ask 0, .store 13, .take 0, .settle 1 true]

theorem conserved_of_overlappingSteps :
    ∃ (history : List (Dispatch Nat × Step Nat)) (dispatch : Dispatch Nat),
      Run step? (start 2) history dispatch ∧ IsCalm history ∧
        endedAs .failed (ended (events history)) = [11] ∧ dispatch.inFlight = [12] ∧
        dispatch.queue.items = [13] ∧ Conserved 2 history dispatch := by
  have hfollow : (Run.follow? step? (start 2 : Dispatch Nat) overlappingSteps).map
      (fun taken ↦ (taken.1.all fun entry ↦ !entry.2.isCrash,
        endedAs .failed (ended (events taken.1)), taken.2.inFlight, taken.2.queue.items)) =
      some (true, [11], [12], [13]) := by
    decide
  obtain ⟨⟨history, dispatch⟩, htaken, hseen⟩ := Option.map_eq_some_iff.mp hfollow
  simp only [Prod.mk.injEq, List.all_eq_true, Bool.not_eq_true'] at hseen
  obtain ⟨hcalm, hfailed, hinFlight, hitems⟩ := hseen
  have run := Run.of_follow? htaken
  exact ⟨history, dispatch, run, hcalm, hfailed, hinFlight, hitems, conserved_of_run run hcalm⟩

end Runs

end GelfCourier.Dispatch
