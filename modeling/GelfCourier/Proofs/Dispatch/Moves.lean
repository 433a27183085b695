import GelfCourier.Dispatch.Basic
import GelfCourier.Proofs.Concurrent.QueueOrder

/-!
What one step of a dispatch does to its queue, its workers and its counters, and what can be seen to
happen to a record in it (`Dispatch.Moves`). Whatever holds of records throughout a run follows from
this one account of the steps.
-/

set_option autoImplicit false

namespace GelfCourier

variable {ρ : Type}

/-- The record that a worker sends. -/
def Worker.record? : Worker ρ → Option ρ
  | .sending record => some record
  | _ => none

namespace Dispatch

/-- How a send ended. -/
inductive SendEnd where
  | delivered
  | failed
  | panicked
  deriving DecidableEq

/-- What can be seen to happen to a record. -/
inductive Event (ρ : Type) where
  | stored (record : ρ)
  /-- The worker has taken it from the queue and sends it. -/
  | begun (worker : Nat) (record : ρ)
  | ended (worker : Nat) (record : ρ) (ending : SendEnd)

/-- What a step does to a record. -/
def event? (dispatch : Dispatch ρ) : Step ρ → Option (Event ρ)
  | .store record => some (.stored record)
  | .take w => dispatch.queue.items.head?.map (.begun w)
  | .settle w succeeded => (dispatch.worker w).record?.map fun record ↦
      .ended w record (if succeeded then .delivered else .failed)
  | .crash w => (dispatch.worker w).record?.map fun record ↦ .ended w record .panicked
  | _ => none

/-- One step, by what it does to the queue, the workers and the counters. -/
inductive Moves (dispatch : Dispatch ρ) : Option (Event ρ) → Dispatch ρ → Prop where
  | store (record : ρ) :
      Moves dispatch (some (.stored record))
        { dispatch with queue := dispatch.queue.store record }
  | signal (hpending : dispatch.queue.unsignalled ≠ 0) :
      Moves dispatch none { dispatch with queue := dispatch.queue.signal }
  | ask (w : Nat) (hidle : dispatch.worker w = .idle) :
      Moves dispatch none ({ dispatch with queue := dispatch.queue.ask w }.setWorker w .asking)
  | start (w : Nat) (record : ρ) (hasking : dispatch.worker w = .asking)
      (hready : dispatch.queue.isReady w = true)
      (hfront : dispatch.queue.items = record :: dispatch.queue.items.tail) :
      Moves dispatch (some (.begun w record))
        ({ dispatch with queue := (dispatch.queue.take w).1 }.setWorker w (.sending record))
  | stop (w : Nat) (hasking : dispatch.worker w = .asking)
      (hready : dispatch.queue.isReady w = true) (hempty : dispatch.queue.items = []) :
      Moves dispatch none
        ({ dispatch with queue := (dispatch.queue.take w).1 }.setWorker w .stopped)
  | deliver (w : Nat) (record : ρ) (hsending : dispatch.worker w = .sending record) :
      Moves dispatch (some (.ended w record .delivered))
        ({ dispatch with delivered := dispatch.delivered + 1 }.setWorker w .idle)
  | fail (w : Nat) (record : ρ) (hsending : dispatch.worker w = .sending record) :
      Moves dispatch (some (.ended w record .failed))
        ({ dispatch with failed := dispatch.failed + 1 }.setWorker w .idle)
  | crash (w : Nat) (record : ρ) (hsending : dispatch.worker w = .sending record) :
      Moves dispatch (some (.ended w record .panicked)) (dispatch.setWorker w .broken)
  /-- A call begins, ends, is given up or goes on, and nothing else changes. -/
  | call (calls : List Call) : Moves dispatch none { dispatch with calls }
  | close (calls : List Call) :
      Moves dispatch none { dispatch with queue := dispatch.queue.close, unclaimed := [], calls }

variable {dispatch after : Dispatch ρ} {w : Nat} {worker : Worker ρ} {step : Step ρ}
  {event : Option (Event ρ)}

/-! ### Any step -/

def Step.isCrash : Step ρ → Bool
  | .crash _ => true
  | _ => false

/-- Only a crash is seen as a panic. -/
theorem event?_ne_panicked (hcalm : step.isCrash = false) (w : Nat) (record : ρ) :
    dispatch.event? step ≠ some (.ended w record .panicked) := by
  intro hseen
  cases step with
  | crash other => cases hcalm
  | take other =>
    obtain ⟨item, -, hevent⟩ := Option.map_eq_some_iff.mp hseen
    cases hevent
  | settle other succeeded =>
    obtain ⟨item, -, hevent⟩ := Option.map_eq_some_iff.mp hseen
    cases succeeded <;> cases hevent
  | _ => cases hseen

theorem eq_idle_of_isIdle (h : worker.isIdle = true) : worker = .idle := by
  cases worker <;> first | rfl | cases h

theorem eq_asking_of_isAsking (h : worker.isAsking = true) : worker = .asking := by
  cases worker <;> first | rfl | cases h

theorem eq_sending_of_isSending (h : worker.isSending = true) :
    ∃ record, worker = .sending record := by
  cases worker <;> first | exact ⟨_, rfl⟩ | cases h

theorem take_of_empty (hempty : dispatch.queue.items = []) (w : Nat) : dispatch.take w =
    { dispatch with queue := (dispatch.queue.take w).1 }.setWorker w .stopped := by
  unfold take Queue.take
  rw [hempty]
  rfl

theorem take_of_front {record : ρ} {rest : List ρ}
    (hfront : dispatch.queue.items = record :: rest) (w : Nat) : dispatch.take w =
      { dispatch with queue := (dispatch.queue.take w).1 }.setWorker w (.sending record) := by
  unfold take Queue.take
  rw [hfront]
  rfl

theorem moves_take (hasking : dispatch.worker w = .asking)
    (hready : dispatch.queue.isReady w = true) :
    dispatch.Moves (dispatch.event? (.take w)) (dispatch.take w) := by
  cases hitems : dispatch.queue.items with
  | nil =>
    rw [take_of_empty hitems, event?, hitems]
    exact .stop w hasking hready hitems
  | cons record rest =>
    rw [take_of_front hitems, event?, hitems]
    exact .start w record hasking hready (by rw [hitems]; rfl)

theorem settle_eq (dispatch : Dispatch ρ) (w : Nat) (succeeded : Bool) :
    dispatch.settle w succeeded =
      { dispatch with
        delivered := dispatch.delivered + succeeded.toNat
        failed := dispatch.failed + (!succeeded).toNat }.setWorker w .idle := by
  cases succeeded <;> rfl

theorem moves_settle {record : ρ} (hsending : dispatch.worker w = .sending record)
    (succeeded : Bool) :
    dispatch.Moves (dispatch.event? (.settle w succeeded)) (dispatch.settle w succeeded) := by
  rw [event?, hsending]
  cases succeeded with
  | true => exact .deliver w record hsending
  | false => exact .fail w record hsending

theorem moves_advance (dispatch : Dispatch ρ) (call : Call) :
    dispatch.Moves none (dispatch.advance call) := by
  unfold advance
  split
  · split
    · exact .call _
    · exact .call dispatch.calls
  · exact .close _
  · exact .call _
  · exact .call _
  · exact .call _
  · exact .call dispatch.calls

/-- A call sends nothing, and what is queued stays so. -/
theorem advance_keeps (dispatch : Dispatch ρ) (call : Call) :
    (dispatch.advance call).workers = dispatch.workers ∧
      (dispatch.advance call).queue.items = dispatch.queue.items ∧
      (dispatch.advance call).queue.unsignalled = dispatch.queue.unsignalled ∧
      (dispatch.advance call).delivered = dispatch.delivered ∧
      (dispatch.advance call).failed = dispatch.failed := by
  unfold advance
  split
  · split <;> exact ⟨rfl, rfl, rfl, rfl, rfl⟩
  all_goals exact ⟨rfl, rfl, rfl, rfl, rfl⟩

theorem moves_of_step? (h : dispatch.step? step = some after) :
    dispatch.Moves (dispatch.event? step) after := by
  cases step with
  | store record =>
    cases h
    exact .store record
  | signal =>
    simp only [step?] at h
    split at h
    · cases h
    · next hpending => cases h; exact .signal hpending
  | ask w =>
    simp only [step?] at h
    split at h
    · next hidle => cases h; exact .ask w (eq_idle_of_isIdle hidle)
    · cases h
  | take w =>
    simp only [step?] at h
    split at h
    · next hboth =>
      obtain ⟨hasking, hready⟩ := (Bool.and_eq_true _ _).mp hboth
      cases h
      exact moves_take (eq_asking_of_isAsking hasking) hready
    · cases h
  | settle w succeeded =>
    simp only [step?] at h
    split at h
    · next hbusy =>
      obtain ⟨record, hsending⟩ := eq_sending_of_isSending hbusy
      cases h
      exact moves_settle hsending succeeded
    · cases h
  | crash w =>
    simp only [step?] at h
    split at h
    · next hbusy =>
      obtain ⟨record, hsending⟩ := eq_sending_of_isSending hbusy
      cases h
      rw [event?, hsending]
      exact .crash w record hsending
    · cases h
  | begin number kind =>
    simp only [step?] at h
    split at h
    · cases h
    · cases h; exact .call _
  | advance number =>
    simp only [step?] at h
    split at h
    · cases h
    · split at h
      · cases h; exact moves_advance dispatch _
      · cases h
  | cancel number =>
    simp only [step?] at h
    split at h
    · cases h; exact .call _
    · cases h

/-! ### One worker among the others -/

/-- The records that are being sent, one for each worker that sends. -/
def inFlight (dispatch : Dispatch ρ) : List ρ :=
  dispatch.workers.filterMap Worker.record?

/-- A worker that is not known has stopped. -/
theorem exists_split (hworker : dispatch.worker w = worker) (hlive : worker.hasExited = false) :
    ∃ before after, dispatch.workers = before ++ worker :: after ∧ before.length = w := by
  rw [Dispatch.worker, List.getD_eq_getElem?_getD] at hworker
  have hbelow : w < dispatch.workers.length := by
    refine Decidable.byContradiction fun hbeyond ↦ ?_
    rw [← hworker, List.getElem?_eq_none (Nat.le_of_not_lt hbeyond)] at hlive
    cases hlive
  rw [List.getElem?_eq_getElem hbelow, Option.getD_some] at hworker
  refine ⟨dispatch.workers.take w, dispatch.workers.drop (w + 1), ?_, ?_⟩
  · rw [← hworker, List.getElem_cons_drop, List.take_append_drop]
  · exact List.length_take_of_le (Nat.le_of_lt hbelow)

theorem workers_setWorker {before behind : List (Worker ρ)}
    (hworkers : dispatch.workers = before ++ worker :: behind) (new : Worker ρ) :
    (dispatch.setWorker before.length new).workers = before ++ new :: behind := by
  unfold setWorker
  rw [hworkers]
  simp

theorem length_workers_setWorker (dispatch : Dispatch ρ) (w : Nat) (new : Worker ρ) :
    (dispatch.setWorker w new).workers.length = dispatch.workers.length :=
  List.length_set

theorem worker_setWorker (hlive : (dispatch.worker w).hasExited = false) (new : Worker ρ)
    (other : Nat) :
    (dispatch.setWorker w new).worker other = if other = w then new else dispatch.worker other := by
  obtain ⟨before, behind, hworkers, rfl⟩ := exists_split rfl hlive
  have hbelow : before.length < dispatch.workers.length := by
    rw [hworkers, List.length_append, List.length_cons]
    omega
  unfold Dispatch.worker setWorker
  rw [List.getD_eq_getElem?_getD, List.getElem?_set]
  by_cases hother : before.length = other
  · subst hother
    rw [if_pos rfl, if_pos hbelow, if_pos rfl]
    rfl
  · rw [if_neg hother, if_neg (Ne.symm hother), List.getD_eq_getElem?_getD]

theorem inFlight_eq {before behind : List (Worker ρ)}
    (hworkers : dispatch.workers = before ++ worker :: behind) :
    dispatch.inFlight = before.filterMap Worker.record? ++
      (worker.record?.toList ++ behind.filterMap Worker.record?) := by
  unfold inFlight
  rw [hworkers, List.filterMap_append, List.filterMap_cons]
  cases worker.record? <;> rfl

/-- Assumes: a worker that does not send, before and after. -/
theorem inFlight_setWorker (hworker : dispatch.worker w = worker)
    (hlive : worker.hasExited = false) (hold : worker.record? = none) {new : Worker ρ}
    (hnew : new.record? = none) :
    (dispatch.setWorker w new).inFlight = dispatch.inFlight := by
  obtain ⟨before, behind, hworkers, rfl⟩ := exists_split hworker hlive
  rw [inFlight_eq hworkers, inFlight_eq (workers_setWorker hworkers new), hold, hnew]

theorem inFlight_perm_of_start (hworker : dispatch.worker w = .asking) (record : ρ) :
    (dispatch.setWorker w (.sending record)).inFlight.Perm (record :: dispatch.inFlight) := by
  obtain ⟨before, behind, hworkers, rfl⟩ := exists_split hworker rfl
  rw [inFlight_eq hworkers, inFlight_eq (workers_setWorker hworkers (.sending record))]
  exact List.perm_middle

/-- Assumes: a worker that sends before and does not after. -/
theorem inFlight_perm_of_end {record : ρ} (hworker : dispatch.worker w = .sending record)
    {new : Worker ρ} (hnew : new.record? = none) :
    dispatch.inFlight.Perm (record :: (dispatch.setWorker w new).inFlight) := by
  obtain ⟨before, behind, hworkers, rfl⟩ := exists_split hworker rfl
  rw [inFlight_eq hworkers, inFlight_eq (workers_setWorker hworkers new), hnew]
  exact List.perm_middle

/-- A dispatch with one worker. -/
theorem workers_eq_singleton (hone : dispatch.workers.length ≤ 1)
    (hworker : dispatch.worker w = worker) (hlive : worker.hasExited = false) :
    dispatch.workers = [worker] ∧ w = 0 := by
  obtain ⟨before, behind, hworkers, rfl⟩ := exists_split hworker hlive
  rw [hworkers, List.length_append, List.length_cons] at hone
  have hbefore : before = [] := List.eq_nil_of_length_eq_zero (by omega)
  have hbehind : behind = [] := List.eq_nil_of_length_eq_zero (by omega)
  rw [hworkers, hbefore, hbehind]
  exact ⟨rfl, rfl⟩

/-! ### Runs -/

/-- What happened to records in a run, in order. -/
def events (history : List (Dispatch ρ × Step ρ)) : List (Event ρ) :=
  Run.observed event? history

theorem events_append_singleton (history : List (Dispatch ρ × Step ρ)) (dispatch : Dispatch ρ)
    (step : Step ρ) : events (history ++ [(dispatch, step)]) =
      events history ++ (dispatch.event? step).toList :=
  Run.observed_append_singleton _ history dispatch step

theorem Moves.length_workers (hmoves : dispatch.Moves event after) :
    after.workers.length = dispatch.workers.length := by
  cases hmoves <;> first | rfl | exact length_workers_setWorker _ _ _

end Dispatch

end GelfCourier
