import GelfCourier.Proofs.Dispatch.Overlap

/-!
A shutdown that no other one meets. It takes all workers over, so it has nobody left to wait for
only when each of them has left; and a worker leaves a closed queue that is empty, which is when all
records that came before the close have been taken. So these records have been sent when the
shutdown returns, whether workers were busy, waited for a permit or held one when the queue was
closed. What comes later may be sent or left behind.
-/

set_option autoImplicit false

namespace GelfCourier.Dispatch

variable {ρ : Type}

/-- The record that a step pushes while the queue is open. -/
def early? (dispatch : Dispatch ρ) (step : Step ρ) : Option ρ :=
  if dispatch.queue.closed then none else (dispatch.event? step).bind Event.stored?

/-- The record that a step pushes at a closed queue. -/
def tardy? (dispatch : Dispatch ρ) (step : Step ρ) : Option ρ :=
  if dispatch.queue.closed then (dispatch.event? step).bind Event.stored? else none

/-- The records pushed before the close. -/
def early (history : List (Dispatch ρ × Step ρ)) : List ρ :=
  Run.observed early? history

/-- The records pushed after the close. -/
def tardy (history : List (Dispatch ρ × Step ρ)) : List ρ :=
  Run.observed tardy? history

/-- A call that closes the queue. -/
def Step.shutdown? : Step ρ → Option Nat
  | .begin number kind => if kind = .flush then none else some number
  | _ => none

/-- The calls of a run that close the queue. -/
def shutdowns (history : List (Dispatch ρ × Step ρ)) : List Nat :=
  Run.observed (fun _ step ↦ step.shutdown?) history

variable {dispatch after : Dispatch ρ}

/-! ### Records before and after the close -/

/-- No worker leaves an open queue, and none leaves before every early record has been taken. -/
structure Parted (early tardy taken : List ρ) (dispatch : Dispatch ρ) : Prop where
  sound : dispatch.queue.Sound
  order : taken ++ dispatch.queue.items = early ++ tardy
  opened : dispatch.queue.closed = false → tardy = [] ∧ .stopped ∉ dispatch.workers
  stopped : .stopped ∈ dispatch.workers → early <+: taken

namespace Parted

variable {early tardy taken : List ρ} {w : Nat} {worker : Worker ρ} {record : ρ}
  {event : Option (Event ρ)}

theorem start (workers : Nat) : Parted [] [] [] (Dispatch.start workers : Dispatch ρ) := by
  have hnone : .stopped ∉ (Dispatch.start workers : Dispatch ρ).workers := by
    intro hstopped
    cases List.eq_of_mem_replicate hstopped
  exact ⟨.empty, rfl, fun _ ↦ ⟨rfl, hnone⟩, fun hstopped ↦ absurd hstopped hnone⟩

/-- No item comes or goes, and the queue is not opened again. -/
theorem withQueue (h : Parted early tardy taken dispatch) {queue : Queue ρ} (hsound : queue.Sound)
    (hclosed : dispatch.queue.closed = true → queue.closed = true)
    (hitems : queue.items = dispatch.queue.items) :
    Parted early tardy taken { dispatch with queue } where
  sound := hsound
  order := hitems ▸ h.order
  opened := fun hopen ↦ h.opened (Bool.eq_false_iff.mpr fun hwas ↦ by
    rw [hclosed hwas] at hopen
    cases hopen)
  stopped := h.stopped

theorem of_eq (h : Parted early tardy taken dispatch) (hqueue : after.queue = dispatch.queue)
    (hworkers : after.workers = dispatch.workers) : Parted early tardy taken after where
  sound := hqueue ▸ h.sound
  order := hqueue ▸ h.order
  opened := hqueue ▸ hworkers ▸ h.opened
  stopped := hworkers ▸ h.stopped

theorem setWorker (h : Parted early tardy taken dispatch) {new : Worker ρ}
    (hnew : new ≠ .stopped) : Parted early tardy taken (dispatch.setWorker w new) := by
  have hold : .stopped ∈ (dispatch.setWorker w new).workers → .stopped ∈ dispatch.workers := by
    intro hstopped
    rcases List.mem_or_eq_of_mem_set hstopped with hold | hsame
    · exact hold
    · exact absurd hsame.symm hnew
  refine ⟨h.sound, h.order, fun hopen ↦ ?_, fun hnow ↦ h.stopped (hold hnow)⟩
  obtain ⟨hnone, hworkers⟩ := h.opened hopen
  exact ⟨hnone, fun hnow ↦ hworkers (hold hnow)⟩

theorem store (h : Parted early tardy taken dispatch) (record : ρ) :
    Parted (early ++ if dispatch.queue.closed then [] else [record])
      (tardy ++ if dispatch.queue.closed then [record] else []) taken
      { dispatch with queue := dispatch.queue.store record } := by
  have horder : taken ++ (dispatch.queue.items ++ [record]) = early ++ tardy ++ [record] := by
    rw [← List.append_assoc, h.order]
  cases hclosed : dispatch.queue.closed with
  | true =>
    rw [if_pos rfl, if_pos rfl, List.append_nil]
    refine ⟨h.sound.store record, horder.trans (List.append_assoc _ _ _), fun hopen ↦ ?_, h.stopped⟩
    change dispatch.queue.closed = false at hopen
    rw [hclosed] at hopen
    cases hopen
  | false =>
    obtain ⟨hnone, hworkers⟩ := h.opened hclosed
    rw [if_neg Bool.false_ne_true, if_neg Bool.false_ne_true, hnone]
    rw [hnone, List.append_nil] at horder
    exact ⟨h.sound.store record, horder.trans (List.append_nil _).symm,
      fun _ ↦ ⟨rfl, hworkers⟩, fun hstopped ↦ absurd hstopped hworkers⟩

theorem begin (h : Parted early tardy taken dispatch) (hready : dispatch.queue.isReady w = true)
    (hfront : dispatch.queue.items = record :: dispatch.queue.items.tail) :
    Parted early tardy (taken ++ [record])
      ({ dispatch with queue := (dispatch.queue.take w).1 }.setWorker w (.sending record)) := by
  have horder := h.order
  rw [hfront] at horder
  have htaken : Parted early tardy (taken ++ [record])
      { dispatch with queue := (dispatch.queue.take w).1 } :=
    { sound := h.sound.take hready
      order := (List.append_assoc _ _ _).trans horder
      opened := h.opened
      stopped := fun hstopped ↦ (h.stopped hstopped).trans (List.prefix_append _ _) }
  exact htaken.setWorker (by simp)

/-- A worker finds nothing at the front and leaves: the queue is closed, and all early records have
been taken. -/
theorem stop (h : Parted early tardy taken dispatch) (hready : dispatch.queue.isReady w = true)
    (hempty : dispatch.queue.items = []) : Parted early tardy taken
      ({ dispatch with queue := (dispatch.queue.take w).1 }.setWorker w .stopped) := by
  have hclosed := h.sound.closed_of_items_eq_nil hready hempty
  have horder := h.order
  rw [hempty, List.append_nil] at horder
  refine ⟨h.sound.take hready, ?_, fun hopen ↦ ?_, fun _ ↦ ⟨tardy, horder.symm⟩⟩
  · change taken ++ dispatch.queue.items.tail = early ++ tardy
    rw [hempty, horder]
    exact List.append_nil _
  · change dispatch.queue.closed = false at hopen
    rw [hclosed] at hopen
    cases hopen

theorem moves (h : Parted early tardy taken dispatch) (hmoves : dispatch.Moves event after) :
    Parted
      (early ++ (if dispatch.queue.closed then none else event.bind Event.stored?).toList)
      (tardy ++ (if dispatch.queue.closed then event.bind Event.stored? else none).toList)
      (taken ++ ((event.bind Event.begun?).map Prod.snd).toList) after := by
  cases hmoves <;>
    simp only [Option.bind_some, Option.bind_none, Event.stored?, Event.begun?, ite_self,
      Option.map_some, Option.map_none, Option.toList_some, Option.toList_none, List.append_nil]
  case store record =>
    have hstored := h.store record
    cases hclosed : dispatch.queue.closed <;> rw [hclosed] at hstored <;> exact hstored
  case signal hpending =>
    exact h.withQueue (h.sound.signal hpending)
      (fun hclosed ↦ (Queue.closed_addPermit _).trans hclosed) (Queue.items_addPermit _)
  case ask w hidle =>
    have hasked := h.withQueue (h.sound.ask w) (fun hclosed ↦ (Queue.closed_ask _ w).trans hclosed)
      (Queue.items_ask _ w)
    exact hasked.setWorker (by simp)
  case start w record hasking hready hfront => exact h.begin hready hfront
  case stop w hasking hready hempty => exact h.stop hready hempty
  case deliver w record hsending =>
    have hcounted :
        Parted early tardy taken { dispatch with delivered := dispatch.delivered + 1 } :=
      h.of_eq rfl rfl
    exact hcounted.setWorker (by simp)
  case fail w record hsending =>
    have hcounted : Parted early tardy taken { dispatch with failed := dispatch.failed + 1 } :=
      h.of_eq rfl rfl
    exact hcounted.setWorker (by simp)
  case crash w record hsending => exact h.setWorker (by simp)
  case call calls => exact h.of_eq rfl rfl
  case close calls => exact ⟨.close _, h.order, fun hopen ↦ (by cases hopen), h.stopped⟩

end Parted

/-! ### The only shutdown -/

/-- Whether a call closes the queue. -/
def shuts (call : Call) : Bool :=
  call.kind ≠ .flush

/-- The calls that close the queue and have not been given up. -/
def closers (dispatch : Dispatch ρ) : List Call :=
  dispatch.calls.filter shuts

/-- Every shutdown that is under way or was given up has been begun, and a flush does not wait for
workers. -/
structure Reckoned (shutdowns givenUp : List Nat) (dispatch : Dispatch ρ) : Prop where
  length_le : dispatch.closers.length + givenUp.length ≤ shutdowns.length
  flushes : ∀ number call, dispatch.call? number = some call → call.kind = .flush →
    call.phase = .flushing ∨ call.phase = .finished

namespace Reckoned

variable {shutdowns givenUp : List Nat} {number : Nat} {call : Call} {step : Step ρ}

theorem shuts_of_isPast (h : Reckoned shutdowns givenUp dispatch)
    (hcall : dispatch.call? number = some call) (hpast : call.isPast = true) :
    call.kind ≠ .flush := by
  intro hkind
  rcases h.flushes number call hcall hkind with hphase | hphase
  · rw [Call.isPast, hphase] at hpast
    cases hpast
  · rw [Call.isPast, hphase, hkind] at hpast
    cases hpast

theorem shuts_of_awaited (h : Reckoned shutdowns givenUp dispatch)
    (hcall : dispatch.call? number = some call) (hwaits : call.awaited ≠ []) :
    call.kind ≠ .flush := by
  intro hkind
  rcases h.flushes number call hcall hkind with hphase | hphase
  · rw [Call.awaited, hphase] at hwaits
    exact hwaits rfl
  · rw [Call.awaited, hphase] at hwaits
    exact hwaits rfl

theorem mem_closers (hcall : dispatch.call? number = some call) (hkind : call.kind ≠ .flush) :
    call ∈ dispatch.closers :=
  List.mem_filter.mpr ⟨List.mem_of_find?_eq_some hcall, decide_eq_true hkind⟩

theorem start (workers : Nat) : Reckoned [] [] (Dispatch.start workers : Dispatch ρ) :=
  ⟨Nat.le_refl _, fun number call hcall ↦ by cases hcall⟩

/-- A call goes on, and is still of its kind. -/
theorem setPhase (h : Reckoned shutdowns givenUp dispatch) {between : Dispatch ρ}
    (hcalls : between.calls = dispatch.calls) (hcall : dispatch.call? number = some call)
    (phase : CallPhase) (hphase : call.kind = .flush → phase = .flushing ∨ phase = .finished) :
    Reckoned shutdowns givenUp (between.setPhase number phase) := by
  refine ⟨?_, fun other found hfound hkind ↦ ?_⟩
  · have hsame : (between.setPhase number phase).closers.length = dispatch.closers.length := by
      unfold closers Dispatch.setPhase
      rw [List.filter_map, List.length_map, hcalls]
      congr 2
      funext call
      unfold shuts
      dsimp only [Function.comp_apply]
      split <;> rfl
    rw [hsame]
    exact h.length_le
  · have hlookup (one : Nat) : between.call? one = dispatch.call? one := by
      unfold call?
      rw [hcalls]
    rw [call?_setPhase, hlookup, hlookup] at hfound
    split at hfound
    · rw [hcall] at hfound
      cases hfound
      exact hphase hkind
    · exact h.flushes other found hfound hkind

theorem begin (h : Reckoned shutdowns givenUp dispatch) (kind : CallKind)
    (hfresh : dispatch.call? number = none) :
    Reckoned (shutdowns ++ (Step.begin number kind : Step ρ).shutdown?.toList) givenUp
      (dispatch.begin number kind) := by
  refine ⟨?_, fun other call hcall hkind ↦ ?_⟩
  · have hmore : (dispatch.begin number kind).closers.length + shutdowns.length =
        dispatch.closers.length +
          (shutdowns ++ (Step.begin number kind : Step ρ).shutdown?.toList).length := by
      unfold closers Dispatch.begin
      rw [List.filter_append, List.length_append, List.length_append]
      cases kind <;> simp [shuts, Step.shutdown?] <;> omega
    have hless := h.length_le
    omega
  · rw [call?_begin kind hfresh] at hcall
    split at hcall
    · cases hcall
      cases hkind
      exact .inl rfl
    · exact h.flushes other call hcall hkind

/-- A shutdown that waits is given up. -/
theorem cancel (h : Reckoned shutdowns givenUp dispatch)
    (hcall : dispatch.call? number = some call) :
    Reckoned shutdowns (givenUp ++ (dispatch.givesUp? (.cancel number)).toList)
      (dispatch.cancel number) := by
  have hnumber : call.number = number := by simpa using List.find?_some hcall
  refine ⟨?_, fun other found hfound hkind ↦ ?_⟩
  · have hkept : (dispatch.cancel number).closers =
        dispatch.closers.filter fun call ↦ call.number ≠ number := by
      unfold closers Dispatch.cancel
      rw [List.filter_filter, List.filter_filter]
      congr 1
      funext call
      exact Bool.and_comm _ _
    have hless := h.length_le
    have hle : (dispatch.cancel number).closers.length ≤ dispatch.closers.length :=
      hkept ▸ List.length_filter_le _ _
    rw [List.length_append, givesUp?, hcall]
    dsimp only [Option.map_some]
    split
    · next first rest hwaits =>
      have hwaits : call.awaited = first :: rest := Option.some.inj hwaits
      have hkind := h.shuts_of_awaited hcall (hwaits ▸ List.cons_ne_nil first rest)
      have hlt : (dispatch.cancel number).closers.length < dispatch.closers.length := by
        rw [hkept]
        refine List.length_filter_lt_length_iff_exists.mpr ⟨call, mem_closers hcall hkind, ?_⟩
        simpa using hnumber
      rw [Option.toList_some, List.length_singleton]
      omega
    · rw [Option.toList_none, List.length_nil]
      omega
  · rw [call?_cancel] at hfound
    split at hfound
    · cases hfound
    · exact h.flushes other found hfound hkind

theorem advance (h : Reckoned shutdowns givenUp dispatch)
    (hcall : dispatch.call? number = some call) :
    Reckoned shutdowns givenUp (dispatch.advance call) := by
  have hnumber : call.number = number := by simpa using List.find?_some hcall
  -- A flush that is neither looking nor done does not exist.
  have hother (hne : call.phase ≠ .flushing ∧ call.phase ≠ .finished) (phase : CallPhase) :
      call.kind = .flush → phase = .flushing ∨ phase = .finished := by
    intro hkind
    rcases h.flushes number call hcall hkind with hphase | hphase
    · exact absurd hphase hne.1
    · exact absurd hphase hne.2
  unfold Dispatch.advance
  rw [hnumber]
  split
  · next hphase =>
    split
    · refine h.setPhase rfl hcall _ fun hkind ↦ .inr ?_
      rw [hkind]
      rfl
    · exact h
  · next hphase =>
    refine h.setPhase ?calls hcall _ (hother (by simp [hphase]) _)
    case calls => rfl
  · next hphase => exact h.setPhase rfl hcall _ (hother (by simp [hphase]) _)
  · next hphase => exact h.setPhase rfl hcall _ (hother (by simp [hphase]) _)
  · next hphase => exact h.setPhase rfl hcall _ (hother (by simp [hphase]) _)
  · exact h

theorem of_step? (h : Reckoned shutdowns givenUp dispatch)
    (possible : dispatch.step? step = some after) :
    Reckoned (shutdowns ++ step.shutdown?.toList) (givenUp ++ (dispatch.givesUp? step).toList)
      after := by
  have hmore {more : List Nat} (after : Dispatch ρ) (h : Reckoned shutdowns more after) :
      Reckoned (shutdowns ++ step.shutdown?.toList) more after := by
    refine ⟨Nat.le_trans h.length_le ?_, h.flushes⟩
    rw [List.length_append]
    exact Nat.le_add_right _ _
  cases turns_of_step? possible with
  | work hcalls hunclaimed htakes hgives =>
    rw [hgives, Option.toList_none, List.append_nil]
    refine hmore after ⟨?_, fun number call hcall ↦ ?_⟩
    · unfold closers
      rw [hcalls]
      exact h.length_le
    · unfold call? at hcall
      rw [hcalls] at hcall
      exact h.flushes number call hcall
  | begin number kind hfresh =>
    have hgives : dispatch.givesUp? (.begin number kind) = none := rfl
    rw [hgives, Option.toList_none, List.append_nil]
    exact h.begin kind hfresh
  | advance number call hcall hready =>
    have hgives : dispatch.givesUp? (.advance number) = none := rfl
    rw [hgives, Option.toList_none, List.append_nil]
    exact hmore _ (h.advance hcall)
  | cancel number call hcall => exact hmore _ (h.cancel hcall)

end Reckoned

/-! ### Whole runs -/

section Runs

variable {workers number : Nat} {call : Call} {history : List (Dispatch ρ × Step ρ)}

theorem parted (run : Run step? (start workers) history dispatch) :
    Parted (early history) (tardy history) ((begun (events history)).map Prod.snd) dispatch := by
  induction run with
  | start => exact .start workers
  | step run possible ih =>
    have hmoved := ih.moves (moves_of_step? possible)
    rw [events_append_singleton, begun_append, List.map_append, early, tardy,
      Run.observed_append_singleton, Run.observed_append_singleton, ← Option.toList_map]
    exact hmoved

theorem reckoned (run : Run step? (start workers) history dispatch) :
    Reckoned (shutdowns history) (givenUp history) dispatch := by
  induction run with
  | start => exact .start workers
  | step run possible ih =>
    rw [shutdowns, givenUp, Run.observed_append_singleton, Run.observed_append_singleton]
    exact ih.of_step? possible

theorem awaited_eq_nil_of_isPast (hpast : call.isPast = true) : call.awaited = [] := by
  unfold Call.isPast at hpast
  unfold Call.awaited
  split at hpast <;> simp_all

/-- The only shutdown has nobody left to wait for: all workers have left. -/
theorem isDeserted_of_isPast (run : Run step? (start workers) history dispatch)
    (hsingle : (shutdowns history).length ≤ 1) (hcall : dispatch.call? number = some call)
    (hpast : call.isPast = true) : dispatch.isDeserted = true := by
  have hreckoned := reckoned run
  have hless := hreckoned.length_le
  have hmem := Reckoned.mem_closers hcall (hreckoned.shuts_of_isPast hcall hpast)
  have hsome := List.length_pos_of_mem hmem
  cases (claimed run).1 with
  | nobody htakers hunclaimed hworkers hearly =>
    rw [(hearly number call hcall).1] at hpast
    cases hpast
  | taken taker htakers hunclaimed hawaited =>
    rcases hawaited with hgiven | hall
    · -- The taker was given up, and this call is another shutdown.
      have hgivenUp := List.length_pos_of_mem hgiven
      omega
    · refine isDeserted_of_hasExited fun w ↦ Decidable.byContradiction fun hlive ↦ ?_
      obtain ⟨found, hfound, hw⟩ := hall w (Bool.eq_false_iff.mpr hlive)
      have hwaits : found.awaited ≠ [] := List.ne_nil_of_mem hw
      have hother := Reckoned.mem_closers hfound (hreckoned.shuts_of_awaited hfound hwaits)
      obtain ⟨only, honly⟩ := List.length_eq_one_iff.mp (by omega : dispatch.closers.length = 1)
      rw [honly, List.mem_singleton] at hmem hother
      rw [hother, ← hmem, awaited_eq_nil_of_isPast hpast] at hwaits
      exact hwaits rfl

/-- Where no send panics, the last worker that leaves does so by its own. -/
theorem stopped_mem_workers (run : Run step? (start workers) history dispatch)
    (hcalm : IsCalm history) (hdeserted : dispatch.isDeserted = true) :
    .stopped ∈ dispatch.workers := by
  have hlength := length_workers_of_run run
  have hsome : 0 < dispatch.workers.length := by omega
  obtain ⟨worker, hworker⟩ := List.exists_mem_of_length_pos hsome
  have hexited := List.all_eq_true.mp hdeserted worker hworker
  cases worker with
  | stopped => exact hworker
  | broken => exact absurd hworker (watched run hcalm).unbroken
  | idle => cases hexited
  | asking => cases hexited
  | sending record => cases hexited

/-- What a shutdown has done when it returns. -/
structure Drained (history : List (Dispatch ρ × Step ρ)) (dispatch : Dispatch ρ) : Prop where
  deserted : dispatch.isDeserted = true
  idle : dispatch.inFlight = []
  /-- Each send that was begun is over. -/
  completed : ((begun (events history)).map Prod.snd).Perm
    ((ended (events history)).map fun entry ↦ entry.1.2)
  /-- Unless each worker was lost in a send, the records that came before the close have been sent,
  in their order, and what is still queued came after it. -/
  sent : .stopped ∈ dispatch.workers → ∃ more,
    (begun (events history)).map Prod.snd = early history ++ more ∧
      more ++ dispatch.queue.items = tardy history
  /-- No worker is lost where no send panics, and then each send has been counted. -/
  counted : IsCalm history → .stopped ∈ dispatch.workers ∧
    dispatch.delivered + dispatch.failed = (begun (events history)).length ∧
    (early history).length ≤ dispatch.delivered + dispatch.failed

/-- Assumes: a single shutdown, which has nobody left to wait for. There may be any number of
flushes beside it. -/
theorem drained_of_run (run : Run step? (start workers) history dispatch)
    (hsingle : (shutdowns history).length ≤ 1) (hcall : dispatch.call? number = some call)
    (hpast : call.isPast = true) : Drained history dispatch := by
  have hledger := ledger run
  have hparted := parted run
  have hdeserted := isDeserted_of_isPast run hsingle hcall hpast
  have hidle := inFlight_eq_nil_of_isDeserted hdeserted
  have hover : ((begun (events history)).map Prod.snd).Perm
      ((ended (events history)).map fun entry ↦ entry.1.2) := by
    have hplaces := hledger.places
    rwa [hidle, List.nil_append] at hplaces
  refine ⟨hdeserted, hidle, hover, fun hstopped ↦ ?_, fun hcalm ↦ ?_⟩
  · obtain ⟨more, hmore⟩ := hparted.stopped hstopped
    have horder := hparted.order
    rw [← hmore, List.append_assoc] at horder
    exact ⟨more, hmore.symm, List.append_cancel_left horder⟩
  · have hstopped := stopped_mem_workers run hcalm hdeserted
    have hended := (endedAs_perm (ne_panicked_of_isCalm hcalm)).length_eq
    have hsends := hover.length_eq
    have hearly := (hparted.stopped hstopped).length_le
    rw [List.length_append, ← hledger.delivered_eq, ← hledger.failed_eq] at hended
    rw [List.length_map] at hsends hearly
    exact ⟨hstopped, by omega, by omega⟩

/-- A shutdown meets one worker in a send and one that waits. Two records have no permit yet, a
flush looks for them, and two more records come later. -/
def drainingSteps : List (Step Nat) :=
  [.store 10, .signal, .ask 0, .take 0, .ask 1, .store 11, .store 12, .begin 5 .flush, .advance 5,
    .begin 9 .shutdown, .advance 9, .store 13, .take 1, .settle 0 false, .signal, .ask 0, .take 0,
    .settle 1 true, .ask 1, .take 1, .settle 1 true, .settle 0 true, .ask 0, .ask 1, .take 1,
    .take 0, .advance 9, .store 14, .advance 9]

theorem drained_of_drainingSteps :
    ∃ (history : List (Dispatch Nat × Step Nat)) (dispatch : Dispatch Nat) (call : Call),
      Run step? (start 2) history dispatch ∧ (shutdowns history).length ≤ 1 ∧
        dispatch.call? 9 = some call ∧ call.isPast = true ∧ IsCalm history ∧
        early history = [10, 11, 12] ∧ dispatch.queue.items = [14] ∧ Drained history dispatch := by
  have hfollow : (Run.follow? step? (start 2 : Dispatch Nat) drainingSteps).map (fun taken ↦
      (taken.1.all fun entry ↦ !entry.2.isCrash, shutdowns taken.1, taken.2.call? 9,
        early taken.1, taken.2.queue.items)) =
      some (true, [9], some ⟨9, .shutdown, .joining []⟩, [10, 11, 12], [14]) := by
    decide
  obtain ⟨⟨history, dispatch⟩, htaken, hseen⟩ := Option.map_eq_some_iff.mp hfollow
  simp only [Prod.mk.injEq, List.all_eq_true, Bool.not_eq_true'] at hseen
  obtain ⟨hcalm, hshutdowns, hcall, hearly, hitems⟩ := hseen
  have run := Run.of_follow? htaken
  have hsingle : (shutdowns history).length ≤ 1 := Nat.le_of_eq (congrArg List.length hshutdowns)
  exact ⟨history, dispatch, _, run, hsingle, hcall, rfl, hcalm, hearly, hitems,
    drained_of_run run hsingle hcall rfl⟩

end Runs

end GelfCourier.Dispatch
