import GelfCourier.Proofs.Stream.Frames

/-!
A close is final. It signals before it has the lock, so the send at work may still put a connection
of its own in the slot after the signal. But that send is the only one at work, and a close gets its
turn when it is over: every other task then waits or is over, the connection is taken away, and who
gets the lock from there on is turned away before it could bring another.
-/

set_option autoImplicit false

namespace GelfCourier.Stream

/-- What a task comes to that obtains the lock after the signal of a close. -/
def Purpose.answer : Purpose → Except TransportFault Unit
  | .send _ => .error .closed
  | .close => .ok ()

namespace Transport

/-- Whether a dial, or the pause after one, has come to its end. -/
def Step.isEnd : Step → Bool
  | .dialled _ _ => true
  | .rested _ => true
  | _ => false

section Steps

variable {transport after later : Transport} {task : Task} {step : Step} {number : Nat}
  {longer : List (Transport × Step)}

/-! ### Steps after the signal -/

theorem task?_congr (htasks : after.tasks = transport.tasks) (number : Nat) :
    after.task? number = transport.task? number := by
  unfold task?
  rw [htasks]

theorem task?_setPhase (transport : Transport) (number : Nat) (phase : Phase) (other : Nat) :
    (transport.setPhase number phase).task? other =
      if other = number then (transport.task? number).map fun task ↦ { task with phase }
      else transport.task? other :=
  Numbered.find?_map_update Task.number (fun task ↦ { task with phase }) number
    (fun _ hnumber ↦ hnumber) transport.tasks other

theorem task?_finish (transport : Transport) (number : Nat) (result : Except TransportFault Unit)
    (other : Nat) : (transport.finish number result).task? other =
      if other = number then
        (transport.task? number).map fun task ↦ { task with phase := .finished result }
      else transport.task? other :=
  task?_setPhase transport number (.finished result) other

theorem task?_begin (purpose : Purpose) (hfresh : transport.task? number = none) (other : Nat) :
    (transport.begin number purpose).task? other =
      if other = number then some ⟨number, purpose, .asking⟩ else transport.task? other :=
  Numbered.find?_append_singleton Task.number transport.tasks _ other hfresh

/-- A step of a task changes its phase, and no other task. -/
theorem Moves.tasks_eq {write? : Option Write} (hmoves : Moves transport task write? after) :
    ∃ phase, after.tasks = (transport.setPhase task.number phase).tasks := by
  cases hmoves <;> exact ⟨_, rfl⟩

theorem Moves.closed_eq {write? : Option Write} (hmoves : Moves transport task write? after) :
    after.closed = transport.closed := by
  cases hmoves <;> rfl

theorem step?_enter (htask : transport.task? number = some task) (hphase : task.phase = .asking)
    (hheld : transport.lock.isHeldBy number = true) :
    transport.step? (.enter number) = some (transport.enter task) := by
  simp only [step?, htask, hphase, hheld, if_true]

/-- A task that waits can only enter. -/
theorem enters_of_asking (possible : transport.step? step = some after)
    (hby : step.by? = some number) (htask : transport.task? number = some task)
    (hphase : task.phase = .asking) :
    step = .enter number ∧ after = transport.enter task := by
  obtain ⟨found, hfound, -, ⟨rfl, -, hheld⟩ | ⟨-, hbusy⟩⟩ := moves_of_by? possible hby
  · rw [step?_enter htask hphase hheld] at possible
    exact ⟨rfl, (Option.some.inj possible).symm⟩
  · obtain rfl : task = found := Option.some.inj (htask.symm.trans hfound)
    rw [hphase] at hbusy
    cases hbusy

theorem enter_send_of_closed {message : Message} (hclosed : transport.closed = true)
    (hpurpose : task.purpose = .send message) :
    transport.enter task = transport.finish task.number (.error .closed) := by
  unfold enter
  rw [hpurpose]
  exact if_pos hclosed

theorem tasks_enter_of_closed (hclosed : transport.closed = true) (task : Task) :
    (transport.enter task).tasks =
      (transport.setPhase task.number (.finished task.purpose.answer)).tasks := by
  cases hpurpose : task.purpose with
  | send message =>
    rw [enter_send_of_closed hclosed hpurpose]
    rfl
  | close =>
    unfold enter
    rw [hpurpose]
    rfl

/-- Only the signal of a close closes a transport, and no step takes it back. -/
theorem closed_iff_of_step? (possible : transport.step? step = some after) :
    after.closed = true ↔ transport.closed = true ∨ step = .signal := by
  cases hby : step.by? with
  | none =>
    rcases step?_of_by?_eq_none possible hby with
      ⟨number, purpose, hcall, -, -, rfl⟩ | ⟨rfl, rfl⟩
    · have hother : step ≠ .signal := by
        rintro rfl
        cases hcall
      simp [begin, hother]
    · simp [signal]
  | some number =>
    obtain ⟨task, -, hmoves, -⟩ := moves_of_by? possible hby
    have hother : step ≠ .signal := by
      rintro rfl
      cases hby
    rw [hmoves.closed_eq]
    simp [hother]

theorem closed_of_step? (possible : transport.step? step = some after)
    (hclosed : transport.closed = true) : after.closed = true :=
  (closed_iff_of_step? possible).mpr (.inl hclosed)

/-- From the signal on, a task has waited for the lock, or was turned away when it got it. -/
structure TurnedAway (number : Nat) (longer : List (Transport × Step)) (later : Transport) :
    Prop where
  phase : ∀ task, later.task? number = some task →
    task.phase = .asking ∨ task.phase = .finished task.purpose.answer
  steps : ∀ entry ∈ longer, entry.2.by? = some number → entry.2 = .enter number

theorem TurnedAway.of_step? (h : TurnedAway number longer transport)
    (possible : transport.step? step = some after) (hclosed : transport.closed = true) :
    TurnedAway number (longer ++ [(transport, step)]) after := by
  have hsteps : (step.by? = some number → step = .enter number) →
      ∀ entry ∈ longer ++ [(transport, step)], entry.2.by? = some number →
        entry.2 = .enter number := fun hlast ↦
    List.forall_mem_append.mpr ⟨h.steps, List.forall_mem_singleton.mpr hlast⟩
  cases hby : step.by? with
  | none =>
    refine ⟨fun task htask ↦ ?_, hsteps fun hown ↦ nomatch hby.symm.trans hown⟩
    rcases step?_of_by?_eq_none possible hby with ⟨called, purpose, -, hfresh, -, rfl⟩ | ⟨-, rfl⟩
    · rw [task?_begin purpose hfresh] at htask
      split at htask
      · cases htask
        exact .inl rfl
      · exact h.phase task htask
    · exact h.phase task htask
  | some mover =>
    obtain ⟨moved, hmoved, hmoves, hturn⟩ := moves_of_by? possible hby
    obtain rfl := number_of_task? hmoved
    by_cases hown : number = moved.number
    · subst hown
      -- It has not been at work, so this is its first step with the lock.
      have hasking : moved.phase = .asking := by
        rcases hturn with ⟨-, hasking, -⟩ | ⟨-, hbusy⟩
        · exact hasking
        · rcases h.phase moved hmoved with hphase | hphase <;> rw [hphase] at hbusy <;> cases hbusy
      obtain ⟨rfl, rfl⟩ := enters_of_asking possible hby hmoved hasking
      refine ⟨fun task htask ↦ .inr ?_, hsteps fun _ ↦ rfl⟩
      rw [task?_congr (tasks_enter_of_closed hclosed moved), task?_setPhase, if_pos rfl, hmoved]
        at htask
      cases htask
      rfl
    · refine ⟨fun task htask ↦ ?_, hsteps fun hsame ↦ ?_⟩
      · obtain ⟨phase, htasks⟩ := hmoves.tasks_eq
        rw [task?_congr htasks, task?_setPhase, if_neg hown] at htask
        exact h.phase task htask
      · exact (hown (Option.some.inj (hsame.symm.trans hby))).elim

/-- Assumes: a task that has not had the lock when the close is signalled. -/
theorem turnedAway (hclosed : transport.closed = true)
    (hasking : ∀ task, transport.task? number = some task → task.phase = .asking)
    (run : Run step? transport longer later) :
    later.closed = true ∧ TurnedAway number longer later := by
  induction run with
  | start => exact ⟨hclosed, fun task htask ↦ .inl (hasking task htask), fun _ hmem ↦ nomatch hmem⟩
  | step run possible ih =>
    exact ⟨closed_of_step? possible ih.1, ih.2.of_step? possible ih.1⟩

theorem step?_noticed (htask : transport.task? number = some task)
    (hdialing : task.phase.isDialing = true) (hclosed : transport.closed = true) :
    transport.step? (.noticed number) = some (transport.finish number (.error .closed)) := by
  unfold step?
  simp only [htask, hclosed, if_true]
  cases hphase : task.phase with
  | dialing attempt => rfl
  | pausing attempt => rfl
  | _ => rw [hphase] at hdialing; cases hdialing

/-- What a send that looks for a connection does before its dial or its pause is at its end. -/
theorem noticed_of_isDialing (possible : transport.step? step = some after)
    (hby : step.by? = some number) (hend : step.isEnd = false)
    (htask : transport.task? number = some task) (hdialing : task.phase.isDialing = true) :
    step = .noticed number := by
  cases step with
  | noticed _ =>
    cases hby
    rfl
  | enter _ =>
    cases hby
    simp only [step?, htask] at possible
    split at possible
    · next hphase => rw [hphase] at hdialing; cases hdialing
    · cases possible
  | wrote _ _ =>
    cases hby
    simp only [step?, htask] at possible
    split at possible
    · next hphase _ => rw [hphase] at hdialing; cases hdialing
    · next hphase _ => rw [hphase] at hdialing; cases hdialing
    · cases possible
  | dialled _ _ => cases hend
  | rested _ => cases hend
  | send _ _ => cases hby
  | signal => cases hby
  | close _ => cases hby

/-- A send that looks for a connection notices the close before it goes on. -/
theorem notices_of_isDialing (possible : transport.step? step = some after)
    (hby : step.by? = some number) (hend : step.isEnd = false)
    (htask : transport.task? number = some task) (hdialing : task.phase.isDialing = true)
    (hclosed : transport.closed = true) :
    after = transport.finish number (.error .closed) := by
  obtain rfl := noticed_of_isDialing possible hby hend htask hdialing
  rw [step?_noticed htask hdialing hclosed] at possible
  exact (Option.some.inj possible).symm

/-! ### After a close -/

/-- Nobody is at work, and nobody will be. -/
structure IsShut (transport : Transport) : Prop where
  closed : transport.closed = true
  slot_eq : transport.slot = none
  idle : ∀ number task, transport.task? number = some task → task.phase.isBusy = false

/-- What still happens on a transport that is shut: calls, signals without effect, and answers. -/
inductive Settles (transport : Transport) : Step → Transport → Prop where
  | call (number : Nat) (purpose : Purpose) (step : Step)
      (hcall : step.call? = some (number, purpose)) (hfresh : transport.task? number = none) :
      Settles transport step (transport.begin number purpose)
  | signal : Settles transport .signal transport
  | answer (task : Task) (htask : transport.task? task.number = some task)
      (hphase : task.phase = .asking) :
      Settles transport (.enter task.number) (transport.finish task.number task.purpose.answer)

namespace IsShut

theorem signal_eq (h : IsShut transport) : transport.signal = transport := by
  unfold signal
  rw [← h.closed]

theorem enter_eq (h : IsShut transport) (task : Task) :
    transport.enter task = transport.finish task.number task.purpose.answer := by
  cases hpurpose : task.purpose with
  | send message => exact enter_send_of_closed h.closed hpurpose
  | close =>
    unfold enter
    rw [hpurpose, ← h.slot_eq]
    rfl

theorem settles (h : IsShut transport) (possible : transport.step? step = some after) :
    Settles transport step after := by
  cases hby : step.by? with
  | none =>
    rcases step?_of_by?_eq_none possible hby with
      ⟨number, purpose, hcall, hfresh, -, rfl⟩ | ⟨rfl, rfl⟩
    · exact .call number purpose step hcall hfresh
    · rw [h.signal_eq]
      exact .signal
  | some number =>
    obtain ⟨task, htask, -, ⟨-, hphase, -⟩ | ⟨-, hbusy⟩⟩ := moves_of_by? possible hby
    · obtain rfl := number_of_task? htask
      obtain ⟨rfl, rfl⟩ := enters_of_asking possible hby htask hphase
      rw [h.enter_eq]
      exact .answer task htask hphase
    · rw [h.idle number task htask] at hbusy
      cases hbusy

end IsShut

namespace Settles

theorem write?_eq_none (hsettles : Settles transport step after) :
    transport.write? step = none := by
  cases hsettles with
  | call number purpose step hcall => cases step <;> first | rfl | cases hcall
  | signal => rfl
  | answer => rfl

theorem accepted_eq (hsettles : Settles transport step after) :
    after.accepted = transport.accepted := by
  cases hsettles <;> rfl

/-- A task that changes is called, or is given its answer. -/
theorem told (hsettles : Settles transport step after) (htask : after.task? number = some task) :
    transport.task? number = some task ∨
      task.phase = .asking ∨ task.phase = .finished task.purpose.answer := by
  cases hsettles with
  | call called purpose step hcall hfresh =>
    rw [task?_begin purpose hfresh] at htask
    split at htask
    · cases htask
      exact .inr (.inl rfl)
    · exact .inl htask
  | signal => exact .inl htask
  | answer answered hanswered =>
    rw [task?_finish, hanswered] at htask
    split at htask
    · cases htask
      exact .inr (.inr rfl)
    · exact .inl htask

theorem isShut (hsettles : Settles transport step after) (h : IsShut transport) :
    IsShut after := by
  have hidle : ∀ number task, after.task? number = some task → task.phase.isBusy = false := by
    intro number task htask
    rcases hsettles.told htask with hold | hphase | hphase
    · exact h.idle number task hold
    · rw [hphase]
      rfl
    · rw [hphase]
      rfl
  cases hsettles with
  | call => exact ⟨h.closed, h.slot_eq, hidle⟩
  | signal => exact h
  | answer => exact ⟨h.closed, h.slot_eq, hidle⟩

end Settles

/-- What is so of every run that goes on after a close is over. -/
structure StaysShut (transport : Transport) (longer : List (Transport × Step))
    (later : Transport) : Prop where
  closed : later.closed = true
  slot_eq : later.slot = none
  accepted_eq : later.accepted = transport.accepted
  silent : writes longer = []
  /-- A task that was not over is answered when it gets the lock, a send with an error. -/
  told : ∀ number task, later.task? number = some task → transport.task? number = some task ∨
    task.phase = .asking ∨ task.phase = .finished task.purpose.answer
  /-- One more close only has itself to end. -/
  again : ∀ step after, later.step? step = some after → Settles later step after

theorem IsShut.stays (h : IsShut transport) (run : Run step? transport longer later) :
    IsShut later ∧ StaysShut transport longer later := by
  induction run with
  | start =>
    exact ⟨h, h.closed, h.slot_eq, rfl, rfl, fun _ _ htask ↦ .inl htask, fun _ _ ↦ h.settles⟩
  | step run possible ih =>
    obtain ⟨hshut, hstays⟩ := ih
    have hsettles := hshut.settles possible
    have hnext := hsettles.isShut hshut
    refine ⟨hnext, hnext.closed, hnext.slot_eq, hsettles.accepted_eq.trans hstays.accepted_eq, ?_,
      fun number task htask ↦ ?_, fun _ _ ↦ hnext.settles⟩
    · rw [writes_of_none _ hsettles.write?_eq_none]
      exact hstays.silent
    · rcases hsettles.told htask with hold | hanswered
      · exact hstays.told number task hold
      · exact .inr hanswered

end Steps

/-! ### Whole runs -/

section Runs

variable {transport after : Transport} {done live : List Task} {task : Task} {number : Nat}
  {history : List (Transport × Step)} {step : Step}

/-- Where those that are not over all wait, nobody is at work. -/
theorem Queued.idle_of_waiting (h : Queued transport done live)
    (hwaiting : ∀ task ∈ live, task.phase.isAsking = true) (htask : task ∈ transport.tasks) :
    task.phase.isBusy = false := by
  rw [h.tasks_eq] at htask
  unfold Phase.isBusy
  rcases List.mem_append.mp htask with hdone | hlive
  · rw [h.ended task hdone, Bool.not_true, Bool.and_false]
  · rw [hwaiting task hlive]
    rfl

/-- A close that has its turn comes when nobody is at work. -/
theorem isShut_enter_close (h : Queued transport done live)
    (htask : transport.task? number = some task) (hpurpose : task.purpose = .close)
    (hheld : transport.lock.isHeldBy number = true) (hclosed : transport.closed = true) :
    IsShut (transport.enter task) := by
  obtain ⟨rest, rfl⟩ := h.front_of_held htask hheld
  have hemptied : Queued { transport with slot := none } done (task :: rest) := h.congr rfl rfl
  have hended := hemptied.finish (.ok ())
  unfold enter
  rw [hpurpose]
  exact ⟨hclosed, rfl, fun _ _ hother ↦ hended.idle_of_waiting h.waiting (mem_of_task? hother)⟩

/-- A close is called after its signal, it is never at work, and when it is over nobody is. -/
structure Shuts (transport : Transport) (task : Task) : Prop where
  signalled : transport.closed = true
  idle : task.phase.isBusy = false
  shut : task.phase.isFinished = true → IsShut transport

def ClosesKept (transport : Transport) : Prop :=
  ∀ number task, transport.task? number = some task → task.purpose = .close →
    Shuts transport task

theorem ClosesKept.of_step? (h : ClosesKept transport) (hqueued : Queued transport done live)
    (possible : transport.step? step = some after) : ClosesKept after := by
  have hstays : ∀ number task, transport.task? number = some task → task.purpose = .close →
      Shuts after task := by
    intro number task htask hclose
    obtain ⟨hsignalled, hidle, hshut⟩ := h number task htask hclose
    exact ⟨closed_of_step? possible hsignalled, hidle, fun hover ↦
      ((hshut hover).settles possible).isShut (hshut hover)⟩
  intro number task htask hclose
  cases hby : step.by? with
  | none =>
    rcases step?_of_by?_eq_none possible hby with
      ⟨called, purpose, -, hfresh, hsignalled, rfl⟩ | ⟨-, rfl⟩
    · rw [task?_begin purpose hfresh] at htask
      split at htask
      · cases htask
        exact ⟨hsignalled hclose, rfl, fun hover ↦ nomatch hover⟩
      · exact hstays number task htask hclose
    · exact hstays number task htask hclose
  | some mover =>
    obtain ⟨moved, hmoved, hmoves, hturn⟩ := moves_of_by? possible hby
    obtain rfl := number_of_task? hmoved
    obtain ⟨phase, htasks⟩ := hmoves.tasks_eq
    rw [task?_congr htasks, task?_setPhase, hmoved] at htask
    split at htask
    · cases htask
      -- A close takes one step only, and this one empties the slot.
      obtain ⟨rfl, hphase, hheld⟩ | ⟨-, hbusy⟩ := hturn
      · have hclosed := (h moved.number moved hmoved hclose).signalled
        obtain ⟨-, rfl⟩ := enters_of_asking possible hby hmoved hphase
        have hshut := isShut_enter_close hqueued hmoved hclose hheld hclosed
        refine ⟨hshut.closed, hshut.idle moved.number _ ?_, fun _ ↦ hshut⟩
        rw [task?_congr htasks, task?_setPhase, if_pos rfl, hmoved]
        rfl
      · rw [(h moved.number moved hmoved hclose).idle] at hbusy
        cases hbusy
    · exact hstays number task htask hclose

/-- What a close means for the sends of a transport. -/
structure CloseFinal (transport : Transport) : Prop where
  /-- A send that obtains the lock after the signal is over at once. -/
  refused : transport.closed = true → ∀ number task message, transport.task? number = some task →
    task.purpose = .send message → task.phase = .asking →
    transport.lock.isHeldBy number = true →
    transport.step? (.enter number) = some (transport.finish number (.error .closed))
  /-- It takes no other step, whatever happens before, so that it neither writes nor dials. -/
  aside : transport.closed = true → ∀ longer later, Run step? transport longer later →
    ∀ number, (∀ task, transport.task? number = some task → task.phase = .asking) →
      TurnedAway number longer later
  /-- A send that looks for a connection can notice the signal. -/
  notices : transport.closed = true → ∀ number task, transport.task? number = some task →
    task.phase.isDialing = true →
    transport.step? (.noticed number) = some (transport.finish number (.error .closed))
  /-- Its next step is to do so, when its dial or its pause is not at its end. -/
  interrupted : transport.closed = true → ∀ number task, transport.task? number = some task →
    task.phase.isDialing = true → ∀ step after, transport.step? step = some after →
    step.by? = some number → step.isEnd = false →
    after = transport.finish number (.error .closed) ∧ after.slot = none
  /-- From the end of a close on, the slot is empty and nothing is written. -/
  shut : ∀ number task, transport.task? number = some task → task.purpose = .close →
    task.phase.isFinished = true → ∀ longer later, Run step? transport longer later →
    StaysShut transport longer later

theorem closesKept {address : String} {policy : RedialPolicy}
    (run : Run step? { address, policy } history transport) : ClosesKept transport := by
  induction run with
  | start => exact fun _ _ htask ↦ nomatch htask
  | step run possible ih =>
    obtain ⟨done, live, hstanding⟩ := standing run
    exact ih.of_step? hstanding.queued possible

/-- A send that looks for a connection has left the slot empty. -/
theorem slot_of_isDialing {address : String} {policy : RedialPolicy}
    (run : Run step? { address, policy } history transport)
    (htask : transport.task? number = some task) (hdialing : task.phase.isDialing = true) :
    transport.slot = none := by
  obtain ⟨done, live, hstanding⟩ := standing run
  obtain ⟨rest, rfl⟩ := hstanding.queued.front_of_busy htask (Phase.isBusy_of_isDialing hdialing)
  exact (fits_of_isDialing hdialing).mp hstanding.carried.fits

/-- A close is final in every run of sends and closes. -/
theorem closeFinal_of_run {address : String} {policy : RedialPolicy}
    (run : Run step? { address, policy } history transport) : CloseFinal transport where
  refused := by
    intro hclosed number task message htask hpurpose hphase hheld
    rw [step?_enter htask hphase hheld, enter_send_of_closed hclosed hpurpose,
      number_of_task? htask]
  aside := fun hclosed _ _ longer _ hasking ↦ (turnedAway hclosed hasking longer).2
  notices := fun hclosed _ _ htask hdialing ↦ step?_noticed htask hdialing hclosed
  interrupted := by
    intro hclosed number task htask hdialing step after possible hby hend
    have hafter := notices_of_isDialing possible hby hend htask hdialing hclosed
    have hslot := slot_of_isDialing run htask hdialing
    exact ⟨hafter, hafter ▸ hslot⟩
  shut := by
    intro number task htask hclose hover longer later hlonger
    have hshut := (closesKept run number task htask hclose).shut hover
    exact (hshut.stays hlonger).2

/-- A send dials when the close is signalled, and a second one waits behind it. -/
def closingSteps (first second : Message) : List Step :=
  let fault : IoFault := ⟨.connectionReset, "connection closed by peer"⟩
  [.send 0 first, .enter 0, .wrote 0 (.broken 3 fault), .send 1 second, .signal, .close 2,
    .noticed 0, .enter 1, .enter 2, .send 3 first, .signal, .close 4, .enter 3, .enter 4]

theorem closeFinal_of_closingSteps : ∃ history transport,
    Run step? { address := "" } history transport ∧
      transport.tasks.map (fun task ↦ (task.number, task.phase.isFinished)) =
        [(0, true), (1, true), (2, true), (3, true), (4, true)] ∧
      transport.slot = none ∧ transport.accepted = [(frame { shortMessage := "a" }).take 3] ∧
      CloseFinal transport := by
  have hfollow : (Run.follow? step? { address := "" }
      (closingSteps { shortMessage := "a" } {})).map
        (fun taken ↦ (taken.2.tasks.map (fun task ↦ (task.number, task.phase.isFinished)),
          taken.2.slot, taken.2.accepted)) =
      some ([(0, true), (1, true), (2, true), (3, true), (4, true)], none,
        [(frame { shortMessage := "a" }).take 3]) := by
    decide +kernel
  obtain ⟨⟨history, transport⟩, htaken, hsame⟩ := Option.map_eq_some_iff.mp hfollow
  have run := Run.of_follow? htaken
  obtain ⟨htasks, hrest⟩ := Prod.mk.inj hsame
  obtain ⟨hslot, haccepted⟩ := Prod.mk.inj hrest
  exact ⟨history, transport, run, htasks, hslot, haccepted, closeFinal_of_run run⟩

end Runs

end Transport

end GelfCourier.Stream
