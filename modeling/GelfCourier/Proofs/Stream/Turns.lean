import GelfCourier.Proofs.Concurrent.LockQueue
import GelfCourier.Proofs.Concurrent.Numbered
import GelfCourier.Stream.Sending

/-!
Whose turn it is. The tasks of a transport, in the order of their calls, are those that are over,
the one that holds the lock, and those that wait for it. Only the holder of the lock takes steps, so
what a step does is said once, for the task in front (`Moves`).
-/

set_option autoImplicit false

namespace GelfCourier.Stream

namespace Phase

def isAsking : Phase → Bool
  | .asking => true
  | _ => false

def isFinished : Phase → Bool
  | .finished _ => true
  | _ => false

/-- Whether a send has the lock and is at work. -/
def isBusy (phase : Phase) : Bool :=
  !phase.isAsking && !phase.isFinished

/-- Whether a send looks for a new connection. -/
def isDialing : Phase → Bool
  | .dialing _ => true
  | .pausing _ => true
  | _ => false

theorem eq_asking {phase : Phase} (hasking : phase.isAsking = true) : phase = .asking := by
  cases phase <;> first | rfl | cases hasking

theorem isFinished_of_isBusy {phase : Phase} (hbusy : phase.isBusy = true) :
    phase.isFinished = false := by
  cases phase <;> first | rfl | cases hbusy

theorem isAsking_of_isBusy {phase : Phase} (hbusy : phase.isBusy = true) :
    phase.isAsking = false := by
  cases phase <;> first | rfl | cases hbusy

theorem isBusy_of_isDialing {phase : Phase} (hdialing : phase.isDialing = true) :
    phase.isBusy = true := by
  cases phase <;> first | rfl | cases hdialing

end Phase

namespace Transport

/-! ### The queue of tasks -/

/-- The tasks are those that are over, and behind them those that hold or want the lock. -/
structure Queued (transport : Transport) (done live : List Task) : Prop where
  tasks_eq : transport.tasks = done ++ live
  nodup : (transport.tasks.map Task.number).Nodup
  ended : ∀ task ∈ done, task.phase.isFinished = true
  turn : ∀ task ∈ live.head?, task.phase.isFinished = false
  waiting : ∀ task ∈ live.tail, task.phase.isAsking = true
  queue_eq : transport.lock.queue = live.map Task.number
  tidy : transport.lock.IsTidy

variable {transport after : Transport} {done live rest : List Task} {task : Task} {number : Nat}

theorem number_of_task? (htask : transport.task? number = some task) : task.number = number := by
  have hfound := List.find?_some htask
  simpa using hfound

theorem mem_of_task? (htask : transport.task? number = some task) : task ∈ transport.tasks :=
  List.mem_of_find?_eq_some htask

namespace Queued

theorem start (address : String) (policy : RedialPolicy) :
    Queued { address, policy } [] [] where
  tasks_eq := rfl
  nodup := List.nodup_nil
  ended := fun _ hmem ↦ nomatch hmem
  turn := fun _ hmem ↦ nomatch hmem
  waiting := fun _ hmem ↦ nomatch hmem
  queue_eq := rfl
  tidy := fun _ ↦ rfl

theorem congr (h : Queued transport done live) (htasks : after.tasks = transport.tasks)
    (hlock : after.lock = transport.lock) : Queued after done live where
  tasks_eq := htasks.trans h.tasks_eq
  nodup := htasks ▸ h.nodup
  ended := h.ended
  turn := h.turn
  waiting := h.waiting
  queue_eq := hlock ▸ h.queue_eq
  tidy := hlock ▸ h.tidy

theorem begin (h : Queued transport done live) (purpose : Purpose)
    (hfresh : transport.task? number = none) :
    Queued (transport.begin number purpose) done (live ++ [⟨number, purpose, .asking⟩]) where
  tasks_eq := by
    unfold Transport.begin
    rw [h.tasks_eq, List.append_assoc]
  nodup := by
    have hnew : number ∉ transport.tasks.map Task.number := by
      intro hmem
      obtain ⟨old, hold, hnumber⟩ := List.mem_map.mp hmem
      have hnone := List.find?_eq_none.mp hfresh old hold
      simp [hnumber] at hnone
    unfold Transport.begin
    rw [List.map_append, List.nodup_append]
    refine ⟨h.nodup, by simp, ?_⟩
    rintro old hold _ hadded rfl
    rw [List.map_singleton, List.mem_singleton] at hadded
    obtain rfl : old = number := hadded
    exact hnew hold
  ended := h.ended
  turn := by
    cases live with
    | nil =>
      rintro _ ⟨⟩
      rfl
    | cons first rest => exact h.turn
  waiting := by
    cases live with
    | nil => exact fun _ hmem ↦ nomatch hmem
    | cons first rest =>
      intro other hother
      rcases List.mem_append.mp hother with hold | hnew
      · exact h.waiting other hold
      · rw [List.mem_singleton.mp hnew]
        rfl
  queue_eq := by
    unfold Transport.begin
    rw [Lock.queue_ask h.tidy, h.queue_eq, List.map_append]
    rfl
  tidy := Lock.isTidy_ask _ _

theorem tasks_setPhase (h : Queued transport done (task :: rest)) (phase : Phase) :
    (transport.setPhase task.number phase).tasks = done ++ { task with phase } :: rest := by
  have hnodup := h.nodup
  unfold Transport.setPhase
  rw [h.tasks_eq] at hnodup ⊢
  exact Numbered.map_update_middle Task.number (fun old ↦ { old with phase }) hnodup

theorem nodup_setPhase (h : Queued transport done (task :: rest)) (phase : Phase) :
    ((transport.setPhase task.number phase).tasks.map Task.number).Nodup := by
  have hnodup := h.nodup
  rw [h.tasks_eq] at hnodup
  rw [h.tasks_setPhase, List.map_append, List.map_cons]
  rwa [List.map_append, List.map_cons] at hnodup

/-- The task in front goes on. -/
theorem setPhase (h : Queued transport done (task :: rest)) {phase : Phase}
    (hlive : phase.isFinished = false) :
    Queued (transport.setPhase task.number phase) done ({ task with phase } :: rest) where
  tasks_eq := h.tasks_setPhase phase
  nodup := h.nodup_setPhase phase
  ended := h.ended
  turn := by
    rintro _ ⟨⟩
    exact hlive
  waiting := h.waiting
  queue_eq := h.queue_eq
  tidy := h.tidy

/-- The task in front is over, and the next one gets its turn. -/
theorem finish (h : Queued transport done (task :: rest)) (result : Except TransportFault Unit) :
    Queued (transport.finish task.number result) (done ++ [{ task with phase := .finished result }])
      rest where
  tasks_eq := by
    rw [List.append_assoc]
    exact h.tasks_setPhase (.finished result)
  nodup := h.nodup_setPhase (.finished result)
  ended := by
    intro other hother
    rcases List.mem_append.mp hother with hold | hnew
    · exact h.ended other hold
    · rw [List.mem_singleton.mp hnew]
      rfl
  turn := by
    intro other hother
    rw [Phase.eq_asking (h.waiting other (List.mem_of_mem_head? hother))]
    rfl
  waiting := fun other hother ↦ h.waiting other (List.mem_of_mem_tail hother)
  queue_eq := Lock.queue_release h.queue_eq h.tidy
  tidy := Lock.isTidy_release _

/-- A task that is neither over nor waiting is the one in front. -/
theorem front_of_busy (h : Queued transport done live) (htask : transport.task? number = some task)
    (hbusy : task.phase.isBusy = true) : ∃ rest, live = task :: rest := by
  have hasking := Phase.isAsking_of_isBusy hbusy
  have hfinished := Phase.isFinished_of_isBusy hbusy
  have hmem := mem_of_task? htask
  rw [h.tasks_eq] at hmem
  rcases List.mem_append.mp hmem with hdone | hlive
  · have hover := h.ended task hdone
    rw [hfinished] at hover
    cases hover
  · cases live with
    | nil => cases hlive
    | cons first rest =>
      rcases List.mem_cons.mp hlive with rfl | hrest
      · exact ⟨rest, rfl⟩
      · have hwaiting := h.waiting task hrest
        rw [hasking] at hwaiting
        cases hwaiting

/-- The holder of the lock is the one in front. -/
theorem front_of_held (h : Queued transport done live) (htask : transport.task? number = some task)
    (hheld : transport.lock.isHeldBy number = true) : ∃ rest, live = task :: rest := by
  have hholder : transport.lock.holder = some number := by simpa [Lock.isHeldBy] using hheld
  have hfront : (live.map Task.number).head? = some number := by
    rw [← h.queue_eq, Lock.head?_queue h.tidy, hholder]
  cases live with
  | nil => cases hfront
  | cons first rest =>
    have hfirst : first.number = number := Option.some.inj hfront
    have hmem : first ∈ transport.tasks := by
      rw [h.tasks_eq]
      exact List.mem_append_right _ List.mem_cons_self
    have hfound := Numbered.find?_of_mem Task.number h.nodup hmem
    rw [hfirst] at hfound
    have hsame : some task = some first := htask.symm.trans hfound
    exact ⟨rest, by rw [Option.some.inj hsame]⟩

end Queued

/-! ### What one step does -/

/-- The write of a frame: by which task, of which message, on which connection, and how it ends. -/
structure Write where
  task : Nat
  message : Message
  connection : Nat
  ending : WriteEnd

/-- The write that a step is, if it is one. -/
def write? (transport : Transport) : Step → Option Write
  | .wrote number ending =>
    (transport.task? number).bind fun task ↦
      match task.purpose, task.phase with
      | .send message, .writing connection => some ⟨number, message, connection, ending⟩
      | .send message, .rewriting connection => some ⟨number, message, connection, ending⟩
      | _, _ => none
  | _ => none

/-- The call that a step is, if it is one. -/
def Step.called? : Step → Option Nat
  | .send number _ => some number
  | .close number => some number
  | _ => none

/-- The task that has obtained the lock and takes its first step with it. -/
def Step.entered? : Step → Option Nat
  | .enter number => some number
  | _ => none

/-- The task that a call begins. -/
def Step.call? : Step → Option (Nat × Purpose)
  | .send number message => some (number, .send message)
  | .close number => some (number, .close)
  | _ => none

/-- The task whose step it is. Calls, and the signal of a close, are steps of none. -/
def Step.by? : Step → Option Nat
  | .send _ _ => none
  | .signal => none
  | .close _ => none
  | .enter number => some number
  | .wrote number _ => some number
  | .dialled number _ => some number
  | .rested number => some number
  | .noticed number => some number

theorem called?_of_call? {step : Step} {purpose : Purpose}
    (hcall : step.call? = some (number, purpose)) : step.called? = some number := by
  cases step <;> cases hcall <;> rfl

theorem called?_of_by? {step : Step} (hby : step.by? = some number) : step.called? = none := by
  cases step <;> first | rfl | cases hby

theorem unseen_of_by?_eq_none {step : Step} (transport : Transport) (hby : step.by? = none) :
    step.entered? = none ∧ transport.write? step = none := by
  cases step <;> first | exact ⟨rfl, rfl⟩ | cases hby

/-- A step of the task in front: the write it is, if it is one, and the transport after it. -/
inductive Moves (transport : Transport) (task : Task) : Option Write → Transport → Prop where
  | shut (hphase : task.phase = .asking) (hpurpose : task.purpose = .close) :
      Moves transport task none ({ transport with slot := none }.finish task.number (.ok ()))
  | fail (fault : TransportFault) :
      Moves transport task none (transport.finish task.number (.error fault))
  | discard (fault : TransportFault) (hphase : task.phase.isDialing = true) :
      Moves transport task none
        ({ transport with accepted := transport.accepted ++ [[]] }.finish task.number
          (.error fault))
  | write (connection : Nat) (hphase : task.phase = .asking)
      (hslot : transport.slot = some connection) :
      Moves transport task none (transport.setPhase task.number (.writing connection))
  | dial (hphase : task.phase = .asking) (hslot : transport.slot = none) :
      Moves transport task none (transport.setPhase task.number (.dialing 1))
  | wait (phase : Phase) (hphase : task.phase.isDialing = true) (hnext : phase.isDialing = true) :
      Moves transport task none (transport.setPhase task.number phase)
  | connect (hphase : task.phase.isDialing = true) :
      Moves transport task none ({ transport with accepted := transport.accepted ++ [[]] }.setPhase
        task.number (.rewriting transport.accepted.length))
  | wrote (message : Message) (connection : Nat) (hpurpose : task.purpose = .send message)
      (hphase : task.phase = .writing connection) :
      Moves transport task (some ⟨task.number, message, connection, .whole⟩)
        ((transport.accept connection (frame message)).finish task.number (.ok ()))
  | broke (message : Message) (connection written : Nat) (fault : IoFault)
      (hpurpose : task.purpose = .send message) (hphase : task.phase = .writing connection)
      (hwritten : written < (frame message).length) :
      Moves transport task (some ⟨task.number, message, connection, .broken written fault⟩)
        ({ transport.accept connection ((frame message).take written) with slot := none }.setPhase
          task.number (.dialing 1))
  | rewrote (message : Message) (connection : Nat) (hpurpose : task.purpose = .send message)
      (hphase : task.phase = .rewriting connection) :
      Moves transport task (some ⟨task.number, message, connection, .whole⟩)
        ({ transport.accept connection (frame message) with slot := some connection }.finish
          task.number (.ok ()))
  | rebroke (message : Message) (connection written : Nat) (fault : IoFault)
      (hpurpose : task.purpose = .send message) (hphase : task.phase = .rewriting connection)
      (hwritten : written < (frame message).length) :
      Moves transport task (some ⟨task.number, message, connection, .broken written fault⟩)
        ((transport.accept connection ((frame message).take written)).finish task.number
          (.error (.io fault)))

theorem moves_enter (hphase : task.phase = .asking) :
    Moves transport task none (transport.enter task) := by
  unfold enter
  split
  · next hpurpose => exact .shut hphase hpurpose
  · split
    · exact .fail .closed
    · cases hslot : transport.slot with
      | some connection => exact .write connection hphase hslot
      | none => exact .dial hphase hslot

theorem moves_wrote {message : Message} {connection : Nat} (ending : WriteEnd)
    (hpurpose : task.purpose = .send message)
    (hphase : task.phase = .writing connection ∨ task.phase = .rewriting connection)
    (hpartial : isPartial (frame message) ending = true) :
    Moves transport task (some ⟨task.number, message, connection, ending⟩)
      (transport.wrote task (frame message) ending) := by
  unfold wrote
  cases ending with
  | whole =>
    rcases hphase with hphase | hphase
    · rw [hphase]
      exact .wrote message connection hpurpose hphase
    · rw [hphase]
      exact .rewrote message connection hpurpose hphase
  | broken written fault =>
    have hwritten : written < (frame message).length := by simpa [isPartial] using hpartial
    rcases hphase with hphase | hphase
    · rw [hphase]
      exact .broke message connection written fault hpurpose hphase hwritten
    · rw [hphase]
      exact .rebroke message connection written fault hpurpose hphase hwritten

theorem moves_dialled {attempt : Nat} (ending : DialEnd) (hphase : task.phase = .dialing attempt) :
    Moves transport task none (transport.dialled task ending) := by
  have hdialing : task.phase.isDialing = true := by rw [hphase]; rfl
  unfold dialled
  rw [hphase]
  cases ending with
  | connected => exact .connect hdialing
  | unusable fault => exact .discard (.io fault) hdialing
  | refused fault =>
    dsimp only
    split
    · exact .fail _
    · exact .wait (.pausing attempt) hdialing rfl

theorem write?_eq {message : Message} {connection : Nat} (ending : WriteEnd)
    (htask : transport.task? number = some task) (hpurpose : task.purpose = .send message)
    (hphase : task.phase = .writing connection ∨ task.phase = .rewriting connection) :
    transport.write? (.wrote number ending) = some ⟨task.number, message, connection, ending⟩ := by
  have hnumber := number_of_task? htask
  rw [write?, htask, Option.bind_some, hpurpose, hnumber]
  rcases hphase with hphase | hphase <;> rw [hphase]

/-- A step of a task is its first with the lock, or one of its work. -/
theorem moves_of_by? {step : Step} (possible : transport.step? step = some after)
    (hby : step.by? = some number) :
    ∃ task, transport.task? number = some task ∧
      Moves transport task (transport.write? step) after ∧
      (step = .enter number ∧ task.phase = .asking ∧ transport.lock.isHeldBy number = true ∨
        step.entered? = none ∧ task.phase.isBusy = true) := by
  cases step with
  | send _ _ => cases hby
  | signal => cases hby
  | close _ => cases hby
  | enter _ =>
    cases hby
    simp only [step?] at possible
    split at possible
    · next task htask =>
      split at possible
      · next hphase =>
        split at possible
        · next hheld =>
          cases possible
          exact ⟨task, htask, moves_enter hphase, .inl ⟨rfl, hphase, hheld⟩⟩
        · cases possible
      · cases possible
    · cases possible
  | wrote _ ending =>
    cases hby
    simp only [step?] at possible
    split at possible
    · next task htask =>
      have hwrote : ∀ message connection, task.purpose = .send message →
          task.phase = .writing connection ∨ task.phase = .rewriting connection →
          isPartial (frame message) ending = true →
          Moves transport task (transport.write? (.wrote number ending))
            (transport.wrote task (frame message) ending) := by
        intro message connection hpurpose hphase hpartial
        rw [write?_eq ending htask hpurpose hphase]
        exact moves_wrote ending hpurpose hphase hpartial
      split at possible
      · next connection message hphase hpurpose =>
        split at possible
        · next hpartial =>
          cases possible
          exact ⟨task, htask, hwrote message connection hpurpose (.inl hphase) hpartial,
            .inr ⟨rfl, by rw [hphase]; rfl⟩⟩
        · cases possible
      · next connection message hphase hpurpose =>
        split at possible
        · next hpartial =>
          cases possible
          exact ⟨task, htask, hwrote message connection hpurpose (.inr hphase) hpartial,
            .inr ⟨rfl, by rw [hphase]; rfl⟩⟩
        · cases possible
      · cases possible
    · cases possible
  | dialled _ ending =>
    cases hby
    simp only [step?] at possible
    split at possible
    · next task htask =>
      split at possible
      · next attempt hphase =>
        cases possible
        exact ⟨task, htask, moves_dialled ending hphase, .inr ⟨rfl, by rw [hphase]; rfl⟩⟩
      · cases possible
    · cases possible
  | rested _ =>
    cases hby
    simp only [step?] at possible
    split at possible
    · next task htask =>
      split at possible
      · next attempt hphase =>
        cases possible
        obtain rfl := number_of_task? htask
        exact ⟨task, htask, .wait _ (by rw [hphase]; rfl) rfl, .inr ⟨rfl, by rw [hphase]; rfl⟩⟩
      · cases possible
    · cases possible
  | noticed _ =>
    cases hby
    simp only [step?] at possible
    split at possible
    · next task htask =>
      obtain rfl := number_of_task? htask
      split at possible
      · next attempt hphase =>
        split at possible
        · cases possible
          exact ⟨task, htask, .fail .closed, .inr ⟨rfl, by rw [hphase]; rfl⟩⟩
        · cases possible
      · next attempt hphase =>
        split at possible
        · cases possible
          exact ⟨task, htask, .fail .closed, .inr ⟨rfl, by rw [hphase]; rfl⟩⟩
        · cases possible
      · cases possible
    · cases possible

/-- A step of no task is a call, or the signal of a close. -/
theorem step?_of_by?_eq_none {step : Step} (possible : transport.step? step = some after)
    (hby : step.by? = none) :
    (∃ number purpose, step.call? = some (number, purpose) ∧ transport.task? number = none ∧
        (purpose = .close → transport.closed = true) ∧ after = transport.begin number purpose) ∨
      step = .signal ∧ after = transport.signal := by
  cases step with
  | send number message =>
    simp only [step?] at possible
    split at possible
    · cases possible
    · next hfresh =>
      cases possible
      exact .inl ⟨number, _, rfl, by simpa using hfresh, fun hclose ↦ (nomatch hclose), rfl⟩
  | signal =>
    cases possible
    exact .inr ⟨rfl, rfl⟩
  | close number =>
    simp only [step?] at possible
    split at possible
    · cases possible
    · next hfresh =>
      cases possible
      have hboth : transport.task? number = none ∧ transport.closed = true := by simpa using hfresh
      exact .inl ⟨number, _, rfl, hboth.1, fun _ ↦ hboth.2, rfl⟩
  | enter _ => cases hby
  | wrote _ _ => cases hby
  | dialled _ _ => cases hby
  | rested _ => cases hby
  | noticed _ => cases hby

/-- A step begins a task, or signals the close, or is one of the task in front. -/
theorem step?_cases {step : Step} (hqueued : Queued transport done live)
    (h : transport.step? step = some after) :
    (∃ number purpose, transport.task? number = none ∧ after = transport.begin number purpose ∧
        step.called? = some number ∧ step.entered? = none ∧ transport.write? step = none) ∨
      (after = transport.signal ∧
        step.called? = none ∧ step.entered? = none ∧ transport.write? step = none) ∨
      ∃ task rest, live = task :: rest ∧ Moves transport task (transport.write? step) after ∧
        step.called? = none ∧
        step.entered? = if task.phase.isAsking then some task.number else none := by
  cases hby : step.by? with
  | none =>
    obtain ⟨hentered, hwrite⟩ := unseen_of_by?_eq_none transport hby
    rcases step?_of_by?_eq_none h hby with ⟨number, purpose, hcall, hfresh, -, rfl⟩ | ⟨rfl, rfl⟩
    · exact .inl ⟨number, purpose, hfresh, rfl, called?_of_call? hcall, hentered, hwrite⟩
    · exact .inr (.inl ⟨rfl, rfl, rfl, rfl⟩)
  | some number =>
    obtain ⟨task, htask, hmoves, ⟨rfl, hphase, hheld⟩ | ⟨hentered, hbusy⟩⟩ := moves_of_by? h hby
    · obtain ⟨rest, hlive⟩ := hqueued.front_of_held htask hheld
      obtain rfl := number_of_task? htask
      exact .inr (.inr ⟨task, rest, hlive, hmoves, rfl, by rw [hphase]; rfl⟩)
    · obtain ⟨rest, hlive⟩ := hqueued.front_of_busy htask hbusy
      refine .inr (.inr ⟨task, rest, hlive, hmoves, called?_of_by? hby, ?_⟩)
      rw [hentered, Phase.isAsking_of_isBusy hbusy]
      rfl

end Transport

end GelfCourier.Stream
