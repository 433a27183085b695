import GelfCourier.Proofs.Stream.Closing

/-!
A send at work is alone. It has the lock, so whatever the others do meanwhile, they leave the slot
and the connections as they are, and what the send does from its first write or dial on is a walk of
a small machine (`Works`) over its phase, the slot, and the number of connections made so far.
-/

set_option autoImplicit false

namespace GelfCourier

/-- The dials that a policy allows in a row; none at all is read as one. -/
def RedialPolicy.budget? (policy : RedialPolicy) : Option Nat :=
  policy.maxAttempts.map fun most ↦ max most.toNat 1

namespace Stream

/-- What a send does with the lock. -/
inductive Act where
  | wrote (write : Transport.Write)
  | dialled (ending : DialEnd)
  | rested
  | noticed

/-- What decides how a send at work goes on. -/
structure View where
  phase : Phase
  slot : Option Nat
  /-- Connections made so far, numbered from zero. -/
  connections : Nat

/-- One act of a send at work. -/
inductive Works (address : String) (policy : RedialPolicy) : View → Act → View → Prop where
  | wrote (write : Transport.Write) (slot : Option Nat) (made : Nat)
      (hending : write.ending = .whole) :
      Works address policy ⟨.writing write.connection, slot, made⟩ (.wrote write)
        ⟨.finished (.ok ()), slot, made⟩
  | broke (write : Transport.Write) (slot : Option Nat) (made written : Nat) (fault : IoFault)
      (hending : write.ending = .broken written fault) (hcut : write.IsCut) :
      Works address policy ⟨.writing write.connection, slot, made⟩ (.wrote write)
        ⟨.dialing 1, none, made⟩
  | connected (attempt : Nat) (slot : Option Nat) (made : Nat) :
      Works address policy ⟨.dialing attempt, slot, made⟩ (.dialled .connected)
        ⟨.rewriting made, slot, made + 1⟩
  | unusable (attempt : Nat) (slot : Option Nat) (made : Nat) (fault : IoFault) :
      Works address policy ⟨.dialing attempt, slot, made⟩ (.dialled (.unusable fault))
        ⟨.finished (.error (.io fault)), slot, made + 1⟩
  | refused (attempt : Nat) (slot : Option Nat) (made : Nat) (fault : IoFault)
      (hbudget : ∀ most ∈ policy.budget?, attempt < most) :
      Works address policy ⟨.dialing attempt, slot, made⟩ (.dialled (.refused fault))
        ⟨.pausing attempt, slot, made⟩
  | exhausted (attempt : Nat) (slot : Option Nat) (made most : Nat) (fault : IoFault)
      (hmost : policy.budget? = some most) (hspent : most ≤ attempt) :
      Works address policy ⟨.dialing attempt, slot, made⟩ (.dialled (.refused fault))
        ⟨.finished (.error (.redialExhausted address attempt fault)), slot, made⟩
  | rested (attempt : Nat) (slot : Option Nat) (made : Nat) :
      Works address policy ⟨.pausing attempt, slot, made⟩ .rested
        ⟨.dialing (attempt + 1), slot, made⟩
  | noticed (phase : Phase) (slot : Option Nat) (made : Nat) (hdialing : phase.isDialing = true) :
      Works address policy ⟨phase, slot, made⟩ .noticed ⟨.finished (.error .closed), slot, made⟩
  | rewrote (write : Transport.Write) (slot : Option Nat) (made : Nat)
      (hending : write.ending = .whole) :
      Works address policy ⟨.rewriting write.connection, slot, made⟩ (.wrote write)
        ⟨.finished (.ok ()), some write.connection, made⟩
  | rebroke (write : Transport.Write) (slot : Option Nat) (made written : Nat) (fault : IoFault)
      (hending : write.ending = .broken written fault) (hcut : write.IsCut) :
      Works address policy ⟨.rewriting write.connection, slot, made⟩ (.wrote write)
        ⟨.finished (.error (.io fault)), slot, made⟩

/-- The acts of a send, one after another. -/
inductive Walk (address : String) (policy : RedialPolicy) (start : View) :
    List Act → View → Prop where
  | start : Walk address policy start [] start
  | step {acts : List Act} {act : Act} {view next : View}
      (walk : Walk address policy start acts view) (works : Works address policy view act next) :
      Walk address policy start (acts ++ [act]) next

theorem Phase.isBusy_of_not {phase : Phase} (hasking : phase.isAsking = false)
    (hlive : phase.isFinished = false) : phase.isBusy = true := by
  rw [isBusy, hasking, hlive]
  rfl

namespace Works

variable {address : String} {policy : RedialPolicy} {view next : View} {act : Act}

theorem isAsking_eq_false (works : Works address policy view act next) :
    next.phase.isAsking = false := by
  cases works <;> rfl

theorem isBusy (works : Works address policy view act next) : view.phase.isBusy = true := by
  cases works with
  | noticed phase slot made hdialing => exact Phase.isBusy_of_isDialing hdialing
  | _ => rfl

end Works

theorem Walk.isAsking_eq_false {address : String} {policy : RedialPolicy} {start view : View}
    {acts : List Act} (walk : Walk address policy start acts view)
    (hstart : start.phase.isAsking = false) : view.phase.isAsking = false := by
  cases walk with
  | start => exact hstart
  | step _ works => exact works.isAsking_eq_false

namespace Transport

variable {transport after later : Transport} {done live : List Task} {task : Task} {number : Nat}
  {history longer : List (Transport × Step)} {step : Step} {address : String}
  {policy : RedialPolicy}

theorem isSpent_iff {attempt : Nat} : transport.isSpent attempt = true ↔
    ∃ most, transport.policy.budget? = some most ∧ most ≤ attempt := by
  unfold isSpent RedialPolicy.budget?
  cases transport.policy.maxAttempts with
  | none => simp
  | some most => simp

def view (transport : Transport) (phase : Phase) : View :=
  ⟨phase, transport.slot, transport.accepted.length⟩

/-- What a step is for a send, if it is one of its acts. -/
def act? (number : Nat) (transport : Transport) (step : Step) : Option Act :=
  if step.by? = some number then
    match step with
    | .wrote _ _ => (transport.write? step).map Act.wrote
    | .dialled _ ending => some (.dialled ending)
    | .rested _ => some .rested
    | .noticed _ => some .noticed
    | _ => none
  else none

def acts (number : Nat) (history : List (Transport × Step)) : List Act :=
  Run.observed (act? number) history

theorem acts_append_of_some {act : Act} (hact : act? number transport step = some act) :
    acts number (history ++ [(transport, step)]) = acts number history ++ [act] := by
  unfold acts
  rw [Run.observed_append_singleton, hact]
  rfl

theorem acts_append_of_none (hact : act? number transport step = none) :
    acts number (history ++ [(transport, step)]) = acts number history := by
  unfold acts
  rw [Run.observed_append_singleton, hact, Option.toList_none, List.append_nil]

theorem write?_of_act? {write : Write} (hact : act? number transport step = some (.wrote write)) :
    transport.write? step = some write := by
  unfold act? at hact
  split at hact
  · cases step with
    | wrote _ ending =>
      obtain ⟨found, hfound, hsame⟩ := Option.map_eq_some_iff.mp hact
      cases hsame
      exact hfound
    | _ => cases hact
  · cases hact

/-- A step of a send at work, with what it leaves. -/
structure Worked (transport : Transport) (task : Task) (step : Step) (after : Transport)
    (act : Act) (phase : Phase) : Prop where
  act?_eq : act? task.number transport step = some act
  task?_eq : after.task? task.number = some { task with phase }
  works : Works transport.address transport.policy (transport.view task.phase) act
    (after.view phase)

theorem task?_goesOn {between : Transport} (htasks : between.tasks = transport.tasks)
    (htask : transport.task? number = some task) (phase : Phase) :
    (between.setPhase number phase).task? number = some { task with phase } := by
  rw [task?_setPhase, if_pos rfl, task?_congr htasks, htask]
  rfl

theorem goesOn_of_works {between : Transport} {phase : Phase} {act : Act} {next : View}
    (hphase : task.phase = phase)
    (works : Works transport.address transport.policy (transport.view phase) act next)
    (hact : act? task.number transport step = some act)
    (htask : transport.task? task.number = some task) (htasks : between.tasks = transport.tasks)
    (hview : between.view next.phase = next) :
    ∃ act phase,
      Worked transport task step (between.setPhase task.number next.phase) act phase := by
  subst hphase
  rw [← hview] at works
  exact ⟨act, next.phase, hact, task?_goesOn htasks htask next.phase, works⟩

theorem ends_of_works {between : Transport} {phase : Phase} {act : Act} {slot : Option Nat}
    {made : Nat} {result : Except TransportFault Unit} (hphase : task.phase = phase)
    (works : Works transport.address transport.policy (transport.view phase) act
      ⟨.finished result, slot, made⟩)
    (hact : act? task.number transport step = some act)
    (htask : transport.task? task.number = some task) (htasks : between.tasks = transport.tasks)
    (hslot : between.slot = slot) (hmade : between.accepted.length = made) :
    ∃ act phase, Worked transport task step (between.finish task.number result) act phase := by
  subst hphase hslot hmade
  exact ⟨act, .finished result, hact, task?_goesOn htasks htask (.finished result), works⟩

theorem length_accept (transport : Transport) (connection : Nat) (octets : Bytes) :
    (transport.accept connection octets).accepted.length = transport.accepted.length :=
  List.length_modify _ _ _

theorem act?_wrote {message : Message} {connection : Nat} (ending : WriteEnd)
    (htask : transport.task? task.number = some task) (hpurpose : task.purpose = .send message)
    (hphase : task.phase = .writing connection ∨ task.phase = .rewriting connection) :
    act? task.number transport (.wrote task.number ending) =
      some (.wrote ⟨task.number, message, connection, ending⟩) := by
  have hby : (Step.wrote task.number ending).by? = some task.number := rfl
  rw [act?, if_pos hby]
  simp only [write?_eq ending htask hpurpose hphase]
  rfl

theorem worked_wrote {message : Message} {connection : Nat} {ending : WriteEnd}
    (htask : transport.task? task.number = some task) (hpurpose : task.purpose = .send message)
    (hphase : task.phase = .writing connection ∨ task.phase = .rewriting connection)
    (hpartial : isPartial (frame message) ending = true) :
    ∃ act phase, Worked transport task (.wrote task.number ending)
      (transport.wrote task (frame message) ending) act phase := by
  have hact := act?_wrote ending htask hpurpose hphase
  have hlength := transport.length_accept connection
  unfold wrote
  cases ending with
  | whole =>
    let write : Write := ⟨task.number, message, connection, .whole⟩
    rcases hphase with hphase | hphase
    · rw [hphase]
      exact ends_of_works hphase (.wrote write _ _ rfl) hact htask rfl rfl (hlength _)
    · rw [hphase]
      exact ends_of_works hphase (.rewrote write _ _ rfl) hact htask rfl rfl (hlength _)
  | broken written fault =>
    let write : Write := ⟨task.number, message, connection, .broken written fault⟩
    have hwritten : written < (frame message).length := by simpa [isPartial] using hpartial
    have hcut : write.IsCut := isCut_of_broken rfl hwritten
    rcases hphase with hphase | hphase
    · rw [hphase]
      exact goesOn_of_works hphase (.broke write _ _ written fault rfl hcut) hact htask rfl
        (congrArg (View.mk _ none) (hlength _))
    · rw [hphase]
      exact ends_of_works hphase (.rebroke write _ _ written fault rfl hcut) hact htask rfl rfl
        (hlength _)

theorem worked_dialled {attempt : Nat} (ending : DialEnd)
    (htask : transport.task? task.number = some task) (hphase : task.phase = .dialing attempt) :
    ∃ act phase, Worked transport task (.dialled task.number ending)
      (transport.dialled task ending) act phase := by
  have hact : act? task.number transport (.dialled task.number ending) =
      some (.dialled ending) := if_pos rfl
  have hlength : (transport.accepted ++ [[]]).length = transport.accepted.length + 1 :=
    List.length_append
  unfold dialled
  rw [hphase]
  cases ending with
  | connected =>
    exact goesOn_of_works hphase (.connected attempt _ _) hact htask rfl
      (congrArg (View.mk _ _) hlength)
  | unusable fault =>
    exact ends_of_works hphase (.unusable attempt _ _ fault) hact htask rfl rfl hlength
  | refused fault =>
    dsimp only
    split
    · next hspent =>
      obtain ⟨most, hmost, hle⟩ := isSpent_iff.mp hspent
      exact ends_of_works hphase (.exhausted attempt _ _ most fault hmost hle) hact htask rfl rfl
        rfl
    · next hspent =>
      have hbudget : ∀ most ∈ transport.policy.budget?, attempt < most := by
        intro most hmost
        by_contra hle
        exact hspent (isSpent_iff.mpr ⟨most, hmost, Nat.le_of_not_lt hle⟩)
      exact goesOn_of_works hphase (.refused attempt _ _ fault hbudget) hact htask rfl rfl

/-- Every step of a send at work is one of its acts. -/
theorem exists_worked (possible : transport.step? step = some after)
    (hby : step.by? = some number) (htask : transport.task? number = some task)
    (hbusy : task.phase.isBusy = true) :
    ∃ act phase, Worked transport task step after act phase := by
  obtain rfl := number_of_task? htask
  cases step with
  | send _ _ => cases hby
  | signal => cases hby
  | close _ => cases hby
  | enter _ =>
    cases hby
    simp only [step?, htask] at possible
    split at possible
    · next hphase => rw [hphase] at hbusy; cases hbusy
    · cases possible
  | wrote _ ending =>
    cases hby
    simp only [step?, htask] at possible
    split at possible
    · next connection message hphase hpurpose =>
      split at possible
      · next hpartial =>
        cases possible
        exact worked_wrote htask hpurpose (.inl hphase) hpartial
      · cases possible
    · next connection message hphase hpurpose =>
      split at possible
      · next hpartial =>
        cases possible
        exact worked_wrote htask hpurpose (.inr hphase) hpartial
      · cases possible
    · cases possible
  | dialled _ ending =>
    cases hby
    simp only [step?, htask] at possible
    split at possible
    · next attempt hphase =>
      cases possible
      exact worked_dialled ending htask hphase
    · cases possible
  | rested _ =>
    cases hby
    simp only [step?, htask] at possible
    split at possible
    · next attempt hphase =>
      cases possible
      exact goesOn_of_works hphase (.rested attempt _ _) (if_pos rfl) htask rfl rfl
    · cases possible
  | noticed _ =>
    cases hby
    simp only [step?, htask] at possible
    split at possible
    · next attempt hphase =>
      split at possible
      · cases possible
        exact ends_of_works hphase (.noticed _ _ _ rfl) (if_pos rfl) htask rfl rfl rfl
      · cases possible
    · next attempt hphase =>
      split at possible
      · cases possible
        exact ends_of_works hphase (.noticed _ _ _ rfl) (if_pos rfl) htask rfl rfl rfl
      · cases possible
    · cases possible

/-! ### Beside the other tasks -/

theorem Moves.settings_eq {write? : Option Write} (hmoves : Moves transport task write? after) :
    after.address = transport.address ∧ after.policy = transport.policy := by
  cases hmoves <;> exact ⟨rfl, rfl⟩

theorem settings_of_step? (possible : transport.step? step = some after) :
    after.address = transport.address ∧ after.policy = transport.policy := by
  cases hby : step.by? with
  | none =>
    rcases step?_of_by?_eq_none possible hby with ⟨_, _, -, -, -, rfl⟩ | ⟨-, rfl⟩ <;>
      exact ⟨rfl, rfl⟩
  | some number =>
    obtain ⟨task, -, hmoves, -⟩ := moves_of_by? possible hby
    exact hmoves.settings_eq

theorem settings_of_run (run : Run step? transport longer later) :
    later.address = transport.address ∧ later.policy = transport.policy :=
  run.invariant (fun state ↦ state.address = transport.address ∧ state.policy = transport.policy)
    ⟨rfl, rfl⟩ fun _ _ _ hbefore possible ↦
      have hafter := settings_of_step? possible
      ⟨hafter.1.trans hbefore.1, hafter.2.trans hbefore.2⟩

theorem task?_of_other (possible : transport.step? step = some after)
    (hother : step.by? ≠ some number) (htask : transport.task? number = some task) :
    after.task? number = some task := by
  cases hby : step.by? with
  | none =>
    rcases step?_of_by?_eq_none possible hby with ⟨called, purpose, -, hfresh, -, rfl⟩ | ⟨-, rfl⟩
    · rw [task?_begin purpose hfresh, if_neg, htask]
      rintro rfl
      exact nomatch hfresh.symm.trans htask
    · exact htask
  | some mover =>
    obtain ⟨moved, hmoved, hmoves, -⟩ := moves_of_by? possible hby
    obtain ⟨phase, htasks⟩ := hmoves.tasks_eq
    rw [number_of_task? hmoved] at htasks
    rw [task?_congr htasks, task?_setPhase, if_neg, htask]
    rintro rfl
    exact hother hby

/-- Nobody else takes a step with the lock. -/
theorem view_of_other (hqueued : Queued transport done live)
    (possible : transport.step? step = some after) (hother : step.by? ≠ some number)
    (htask : transport.task? number = some task) (hbusy : task.phase.isBusy = true)
    (phase : Phase) : after.view phase = transport.view phase := by
  cases hby : step.by? with
  | none =>
    rcases step?_of_by?_eq_none possible hby with ⟨_, _, -, -, -, rfl⟩ | ⟨-, rfl⟩ <;> rfl
  | some mover =>
    obtain ⟨moved, hmoved, -, hturn⟩ := moves_of_by? possible hby
    obtain ⟨rest, rfl⟩ := hqueued.front_of_busy htask hbusy
    -- Whoever takes a step with the lock is in front, and the send is there.
    have hfront : ∃ rest', task :: rest = moved :: rest' := by
      rcases hturn with ⟨-, -, hheld⟩ | ⟨-, hmovedBusy⟩
      · exact hqueued.front_of_held hmoved hheld
      · exact hqueued.front_of_busy hmoved hmovedBusy
    obtain ⟨rest', hsame⟩ := hfront
    obtain rfl : task = moved := (List.cons.inj hsame).1
    rw [← number_of_task? htask, number_of_task? hmoved] at hother
    exact (hother hby).elim

theorem act?_eq_none_of_other (hother : step.by? ≠ some number) :
    act? number transport step = none :=
  if_neg hother

/-- A task that is over takes no more steps. -/
theorem not_finished_of_by? (possible : transport.step? step = some after)
    (hby : step.by? = some number) (htask : transport.task? number = some task) :
    task.phase.isFinished = false := by
  obtain ⟨found, hfound, -, hturn⟩ := moves_of_by? possible hby
  obtain rfl : task = found := Option.some.inj (htask.symm.trans hfound)
  rcases hturn with ⟨-, hphase, -⟩ | ⟨-, hbusy⟩
  · rw [hphase]
    rfl
  · exact Phase.isFinished_of_isBusy hbusy

/-- A send that was at work has come to this view. -/
structure Walked (address : String) (policy : RedialPolicy) (start : View) (task : Task)
    (longer : List (Transport × Step)) (later : Transport) (view : View) : Prop where
  task?_eq : later.task? task.number = some { task with phase := view.phase }
  walk : Walk address policy start (acts task.number longer) view
  sent : ∀ write, .wrote write ∈ acts task.number longer →
    write.task = task.number ∧ task.purpose = .send write.message
  view_eq : view.phase.isFinished = false → later.view view.phase = view

namespace Walked

variable {start view : View}

theorem of_other (h : Walked address policy start task longer later view)
    (hqueued : Queued later done live) (possible : later.step? step = some after)
    (hother : step.by? ≠ some task.number) (hasking : view.phase.isAsking = false) :
    Walked address policy start task (longer ++ [(later, step)]) after view := by
  have hacts : acts task.number (longer ++ [(later, step)]) = acts task.number longer :=
    acts_append_of_none (act?_eq_none_of_other hother)
  refine ⟨task?_of_other possible hother h.task?_eq, hacts ▸ h.walk, hacts ▸ h.sent, fun hlive ↦ ?_⟩
  have hbusy := Phase.isBusy_of_not hasking hlive
  exact (view_of_other hqueued possible hother h.task?_eq hbusy view.phase).trans (h.view_eq hlive)

theorem of_own (h : Walked address policy start task longer later view)
    (haddress : later.address = address) (hpolicy : later.policy = policy)
    (possible : later.step? step = some after) (hby : step.by? = some task.number)
    (hasking : view.phase.isAsking = false) :
    ∃ phase, Walked address policy start task (longer ++ [(later, step)]) after
      (after.view phase) := by
  have hlive : view.phase.isFinished = false := not_finished_of_by? possible hby h.task?_eq
  have hview : later.view view.phase = view := h.view_eq hlive
  have hbusy := Phase.isBusy_of_not hasking hlive
  obtain ⟨act, phase, hact, htask, works⟩ := exists_worked possible hby h.task?_eq hbusy
  have works : Works later.address later.policy (later.view view.phase) act (after.view phase) :=
    works
  rw [haddress, hpolicy, hview] at works
  have hacts : acts task.number (longer ++ [(later, step)]) = acts task.number longer ++ [act] :=
    acts_append_of_some hact
  refine ⟨phase, htask, hacts ▸ .step h.walk works, fun write hwrite ↦ ?_, fun _ ↦ rfl⟩
  rw [hacts] at hwrite
  rcases List.mem_append.mp hwrite with hold | hnew
  · exact h.sent write hold
  · obtain rfl := List.mem_singleton.mp hnew
    obtain ⟨found, hfound, hmoves, -⟩ := moves_of_by? possible hby
    obtain rfl := Option.some.inj (h.task?_eq.symm.trans hfound)
    exact hmoves.owned write (by rw [write?_of_act? hact]; exact List.mem_singleton_self write)

end Walked

/-- Whatever the others do, a send at work walks on by its own acts. -/
theorem walked_of_run (run : Run step? { address, policy } history transport)
    (htask : transport.task? task.number = some task) (hbusy : task.phase.isBusy = true)
    (onward : Run step? transport longer later) :
    ∃ view, Walked address policy (transport.view task.phase) task longer later view := by
  have hstart : (transport.view task.phase).phase.isAsking = false :=
    Phase.isAsking_of_isBusy hbusy
  induction onward with
  | start =>
    exact ⟨transport.view task.phase, htask, .start, fun _ hwrite ↦ (nomatch hwrite), fun _ ↦ rfl⟩
  | @step longer between after step onward possible ih =>
    obtain ⟨view, hwalked⟩ := ih
    have hasking := hwalked.walk.isAsking_eq_false hstart
    obtain ⟨haddress, hpolicy⟩ := settings_of_run (run.append onward)
    obtain ⟨done, live, hstanding⟩ := standing (run.append onward)
    by_cases hby : step.by? = some task.number
    · obtain ⟨phase, hnext⟩ := hwalked.of_own haddress hpolicy possible hby hasking
      exact ⟨after.view phase, hnext⟩
    · exact ⟨view, hwalked.of_other hstanding.queued possible hby hasking⟩

/-- A send that is over stays so, and does nothing more. -/
theorem settled_of_finished (htask : transport.task? number = some task)
    (hover : task.phase.isFinished = true) (onward : Run step? transport longer later) :
    later.task? number = some task ∧ acts number longer = [] := by
  induction onward with
  | start => exact ⟨htask, rfl⟩
  | @step longer between after step onward possible ih =>
    obtain ⟨hstill, hacts⟩ := ih
    have hother : step.by? ≠ some number := by
      intro hby
      have hlive := not_finished_of_by? possible hby hstill
      rw [hover] at hlive
      cases hlive
    rw [acts_append_of_none (act?_eq_none_of_other hother)]
    exact ⟨task?_of_other possible hother hstill, hacts⟩

end Transport

end Stream

end GelfCourier
