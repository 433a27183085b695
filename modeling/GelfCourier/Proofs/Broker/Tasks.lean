import GelfCourier.Broker.Handover
import GelfCourier.Proofs.Concurrent.Numbered

/-!
What one step does to the consumers of a transport. A step changes at most the task it is about,
and what a consumer does with payloads in one step is one of few things (`Task.Moves`). Whatever
holds of consumers throughout a run follows from this one account of the steps.
-/

set_option autoImplicit false

namespace GelfCourier.Broker

/-! ### What a step does with a payload -/

/-- The payload that a consumer in this phase has popped and is not done with. -/
def Phase.held? : Phase → Option Bytes
  | .push payload _ => some payload
  | .handling payload => some payload
  | .redialing payload => some payload
  | .returning payload => some payload
  | .looking => none
  | .popping => none
  | .resting => none
  | .finished _ => none

/-- Whether a payload is given back after a close. -/
def Phase.IsReturning : Phase → Prop
  | .redialing _ => True
  | .returning _ => True
  | _ => False

def Phase.isFinished : Phase → Bool
  | .finished _ => true
  | _ => false

/-- What nobody can make a message of. -/
def IsUnreadable (payload : Bytes) : Prop :=
  payload = [] ∨ ∃ fault, Payload.read payload = .error fault

/-- What can be seen to happen to a payload. -/
inductive Event where
  /-- The broker gave it to a pop. -/
  | popped
  /-- The handler is done with it and found no fault. -/
  | handled
  /-- The broker acknowledged that it took it in. -/
  | acknowledged
  /-- The one attempt to give it back after a close failed. -/
  | abandoned
  deriving DecidableEq

/-- The payload that a step did this to, if it did. -/
def Event.payload? (event : Event) : Option (Event × Bytes) → Option Bytes
  | some (happened, payload) => if happened = event then some payload else none
  | none => none

namespace Transport

/-- What happens to a payload when the task of this number takes a step. -/
def event? (transport : Transport) (number : Nat) (step : Step) : Option (Event × Bytes) :=
  if step.task? = some number then
    match step, transport.phase? number with
    | .popEnded _ .element, some .popping => transport.list.head?.map (.popped, ·)
    | .handled _ true, some (.handling payload) => some (.handled, payload)
    | .pushed _ true, some (.push payload .pushing) => some (.acknowledged, payload)
    | .pushed _ true, some (.returning payload) => some (.acknowledged, payload)
    | .pushed _ false, some (.returning payload) => some (.abandoned, payload)
    | .dialled _ .refused, some (.redialing payload) => some (.abandoned, payload)
    | _, _ => none
  else none

end Transport

/-- One step of a consumer, by what it does with payloads. -/
inductive Task.Moves (closed : Bool) (task : Task) : Option (Event × Bytes) → Task → Prop where
  | goOn (phase : Phase) (connection : Option Nat) (hheld : phase.held? = task.phase.held?)
      (hbusy : task.phase.isFinished = false) (hlive : phase.isFinished = false)
      (hreturning : phase.IsReturning → task.phase.IsReturning ∨ closed = true) :
      Moves closed task none { task with phase, connection }
  | stop (hphase : task.phase = .looking) :
      Moves closed task none { task with phase := .finished (.ok ()) }
  | receive (payload : Bytes) (hphase : task.phase = .popping) :
      Moves closed task (some (.popped, payload))
        { task with popped := task.popped ++ [payload], phase := .handling payload }
  | drop (payload : Bytes) (hphase : task.phase = .popping) (hunreadable : IsUnreadable payload) :
      Moves closed task (some (.popped, payload))
        { { task with popped := task.popped ++ [payload] }.settle payload .dropped with
          phase := .looking }
  | handle (payload : Bytes) (hphase : task.phase = .handling payload) :
      Moves closed task (some (.handled, payload))
        { task.settle payload .handled with phase := .looking }
  | giveBack (payload : Bytes) (hheld : task.phase.held? = some payload) :
      Moves closed task (some (.acknowledged, payload))
        { task.settle payload .returned with phase := .resting }
  | lose (payload : Bytes) (hheld : task.phase.held? = some payload)
      (hreturning : task.phase.IsReturning) :
      Moves closed task (some (.abandoned, payload))
        { task.settle payload .lost with phase := .finished (.error .broker) }

/-! ### Finding tasks -/

namespace Transport

variable {transport after : Transport} {number : Nat} {task : Task}

theorem number_of_task? (htask : transport.task? number = some task) : task.number = number := by
  have hfound := List.find?_some htask
  simpa using hfound

theorem task?_put {next : Task} (hknown : transport.task? next.number = some task) (other : Nat) :
    (transport.put next).task? other =
      if other = next.number then some next else transport.task? other := by
  have hupdate := Numbered.find?_map_update Task.number (fun _ ↦ next) next.number
    (fun _ _ ↦ rfl) transport.tasks other
  have hfound : (transport.tasks.find? fun old ↦ old.number = next.number) = some task := hknown
  rw [hfound] at hupdate
  exact hupdate

theorem task?_begin (purpose : Purpose) (hfresh : transport.task? number = none) (other : Nat) :
    (transport.begin number purpose).task? other =
      if other = number then some (Task.ofPurpose number purpose) else transport.task? other := by
  have hnumber : (Task.ofPurpose number purpose).number = number := by cases purpose <;> rfl
  have hadded := Numbered.find?_append_singleton Task.number transport.tasks
    (Task.ofPurpose number purpose) other (by rw [hnumber]; exact hfresh)
  rw [hnumber] at hadded
  exact hadded

/-! ### Each operation -/

/-- The push that the broker acknowledges to a task in a step, if it does. -/
def acknowledged (number : Nat) (event : Option (Event × Bytes)) : List (Nat × Bytes) :=
  ((Event.acknowledged.payload? event).map fun payload ↦ (number, payload)).toList

/-- The task goes one step on, and every other task stays as it is. What the broker acknowledged
is on its list of pushes. -/
structure Advances (transport : Transport) (task : Task) (event : Option (Event × Bytes))
    (after : Transport) : Prop where
  closed_eq : after.closed = transport.closed
  appended_eq : after.appended = transport.appended ++ acknowledged task.number event
  moved : ∃ next : Task, next.number = task.number ∧ next.purpose = task.purpose ∧
    (task.purpose = .consume → task.Moves transport.closed event next) ∧
    ∀ other, after.task? other = if other = task.number then some next else transport.task? other

section Operations

variable {payload : Bytes} {event : Option (Event × Bytes)}

/-- Only the task is replaced. The pool and the list may change with it. -/
theorem advances_put {between : Transport} {next : Task}
    (hknown : transport.task? task.number = some task) (hclosed : between.closed = transport.closed)
    (happended : between.appended = transport.appended ++ acknowledged task.number event)
    (htasks : between.tasks = transport.tasks) (hnumber : next.number = task.number)
    (hpurpose : next.purpose = task.purpose)
    (hmoves : task.purpose = .consume → task.Moves transport.closed event next) :
    transport.Advances task event (between.put next) := by
  refine ⟨hclosed, happended, next, hnumber, hpurpose, hmoves, fun other ↦ ?_⟩
  have hsame : ∀ wanted, between.task? wanted = transport.task? wanted := by
    intro wanted
    unfold task?
    rw [htasks]
  have hfound : between.task? next.number = some task := by rw [hnumber, hsame, hknown]
  rw [task?_put hfound, hnumber, hsame]

/-- Assumes: a new phase that holds what the old one held. -/
theorem advances_goOn {pool : Pool Nat} {old : Phase} (phase : Phase) (connection : Option Nat)
    (hknown : transport.task? task.number = some task) (hphase : task.phase = old)
    (hheld : phase.held? = old.held?) (hbusy : old.isFinished = false)
    (hlive : phase.isFinished = false)
    (hreturning : phase.IsReturning → old.IsReturning ∨ transport.closed = true) :
    transport.Advances task none
      ({ transport with pool := pool }.put { task with phase, connection }) := by
  rw [← hphase] at hheld hbusy hreturning
  exact advances_put hknown rfl (List.append_nil _).symm rfl rfl rfl fun _ ↦
    .goOn phase connection hheld hbusy hlive hreturning

theorem advances_look (payload : Bytes) (hknown : transport.task? task.number = some task)
    (hphase : task.phase = .looking ∨ task.phase = .push payload .looking) :
    transport.Advances task none (transport.look task) := by
  unfold look
  rcases hphase with hphase | hphase
  · rw [hphase]
    by_cases hclosed : transport.closed = true
    · rw [if_pos hclosed]
      exact advances_put hknown rfl (List.append_nil _).symm rfl rfl rfl fun _ ↦ .stop hphase
    · rw [if_neg hclosed]
      exact advances_goOn .popping _ hknown hphase rfl rfl rfl False.elim
  · rw [hphase]
    by_cases hclosed : transport.closed = true
    · simp only [if_pos hclosed]
      split
      · next hpurpose =>
        exact advances_put hknown rfl (List.append_nil _).symm rfl rfl rfl fun hconsume ↦ by
          rw [hpurpose] at hconsume
          cases hconsume
      · exact advances_goOn (.redialing payload) _ hknown hphase rfl rfl rfl
          fun _ ↦ .inr hclosed
    · simp only [if_neg hclosed]
      exact advances_goOn (.push payload .claiming) _ hknown hphase rfl rfl rfl False.elim

theorem advances_refl {pool : Pool Nat} (hknown : transport.task? task.number = some task)
    (hbusy : task.phase.isFinished = false) :
    transport.Advances task none { transport with pool := pool } := by
  refine ⟨rfl, (List.append_nil _).symm, task, rfl, rfl, fun _ ↦ ?_, fun other ↦ ?_⟩
  · exact .goOn task.phase task.connection rfl hbusy hbusy .inl
  · change transport.task? other = _
    by_cases hother : other = task.number
    · rw [if_pos hother, hother, hknown]
    · rw [if_neg hother]

theorem advances_take (hknown : transport.task? task.number = some task)
    (hphase : task.phase = .push payload .claiming) :
    transport.Advances task none (transport.take task payload) := by
  unfold take
  by_cases hobject : ((transport.pool.take task.number).object? task.number).isSome = true
  · simp only [if_pos hobject]
    exact advances_goOn (.push payload .pushing) _ hknown hphase rfl rfl rfl False.elim
  · simp only [if_neg hobject]
    exact advances_refl hknown (by rw [hphase]; rfl)

/-- Assumes: a task that gives its payload back after a close. -/
theorem advances_lose (hknown : transport.task? task.number = some task)
    (hheld : task.phase.held? = some payload) (hreturning : task.phase.IsReturning) :
    transport.Advances task (some (.abandoned, payload)) (transport.lose task payload) :=
  advances_put hknown rfl (List.append_nil _).symm rfl rfl rfl fun _ ↦
    .lose payload hheld hreturning

theorem advances_dialled (hknown : transport.task? task.number = some task) (ending : DialEnd)
    (hdialing : transport.isDialing task = true) :
    transport.Advances task (transport.event? task.number (.dialled task.number ending))
      (transport.dialled task ending) := by
  have hevent : transport.phase? task.number = some task.phase := by rw [phase?, hknown]; rfl
  unfold event? dialled
  rw [hevent, if_pos (by rfl)]
  unfold isDialing at hdialing
  cases hphase : task.phase with
  | push pushed phase =>
    rw [hphase] at hdialing
    cases phase <;> first | cases hdialing | skip
    cases ending with
    | connected connection =>
      exact advances_goOn (.push pushed .pushing) _ hknown hphase rfl rfl rfl False.elim
    | refused =>
      exact advances_refl hknown (by rw [hphase]; rfl)
  | popping =>
    cases ending with
    | connected connection =>
      exact advances_goOn .popping _ hknown hphase rfl rfl rfl False.elim
    | refused =>
      exact advances_goOn .resting _ hknown hphase rfl rfl rfl False.elim
  | redialing returned =>
    cases ending with
    | connected connection =>
      exact advances_goOn (.returning returned) _ hknown hphase rfl rfl rfl
        fun _ ↦ .inl trivial
    | refused => exact advances_lose hknown (by rw [hphase]; rfl) (by rw [hphase]; trivial)
  | looking => rw [hphase] at hdialing; cases hdialing
  | handling _ => rw [hphase] at hdialing; cases hdialing
  | returning _ => rw [hphase] at hdialing; cases hdialing
  | resting => rw [hphase] at hdialing; cases hdialing
  | finished _ => rw [hphase] at hdialing; cases hdialing

/-- A push that the broker acknowledged ends a send, and a consumer's payload is given back. -/
theorem advances_acknowledged {between : Transport} {result : Except TransportFault Unit}
    (hknown : transport.task? task.number = some task) (hclosed : between.closed = transport.closed)
    (happended : between.appended = transport.appended ++ [(task.number, payload)])
    (htasks : between.tasks = transport.tasks) (hheld : task.phase.held? = some payload) :
    transport.Advances task (some (.acknowledged, payload))
      (match task.purpose with
      | .send _ => between.put { task with phase := .finished result }
      | .consume => between.put { task.settle payload .returned with phase := .resting }) := by
  split
  · next hpurpose =>
    refine advances_put hknown hclosed happended htasks rfl rfl fun hconsume ↦ ?_
    rw [hpurpose] at hconsume
    cases hconsume
  · exact advances_put hknown hclosed happended htasks rfl rfl fun _ ↦ .giveBack payload hheld

theorem advances_pushed (hknown : transport.task? task.number = some task) (acknowledged : Bool)
    (hphase : task.phase = .push payload .pushing ∨ task.phase = .returning payload) :
    transport.Advances task (transport.event? task.number (.pushed task.number acknowledged))
      (transport.pushed task acknowledged) := by
  have hevent : transport.phase? task.number = some task.phase := by rw [phase?, hknown]; rfl
  unfold event? pushed
  rw [hevent, if_pos (by rfl)]
  rcases hphase with hphase | hphase
  · have hheld : task.phase.held? = some payload := by rw [hphase]; rfl
    cases acknowledged with
    | true =>
      simp only [hphase]
      exact advances_acknowledged hknown rfl rfl rfl hheld
    | false =>
      simp only [hphase]
      exact advances_goOn (.push payload .pausing) _ hknown hphase rfl rfl rfl False.elim
  · have hheld : task.phase.held? = some payload := by rw [hphase]; rfl
    cases acknowledged with
    | true =>
      simp only [hphase]
      exact advances_put hknown rfl rfl rfl rfl rfl fun _ ↦ .giveBack payload hheld
    | false =>
      simp only [hphase]
      exact advances_lose hknown hheld (by rw [hphase]; trivial)

theorem advances_receive {between : Transport} (hknown : transport.task? task.number = some task)
    (hclosed : between.closed = transport.closed)
    (happended : between.appended = transport.appended)
    (htasks : between.tasks = transport.tasks) (hphase : task.phase = .popping) :
    transport.Advances task (some (.popped, payload)) (between.receive task payload) := by
  have happended : between.appended =
      transport.appended ++ acknowledged task.number (some (.popped, payload)) :=
    happended.trans (List.append_nil _).symm
  unfold receive
  by_cases hempty : payload.isEmpty = true
  · simp only [if_pos hempty]
    have hnil : payload = [] := List.isEmpty_iff.mp hempty
    exact advances_put hknown hclosed happended htasks rfl rfl fun _ ↦
      .drop payload hphase (.inl hnil)
  · simp only [if_neg hempty]
    cases hread : Payload.read payload with
    | error fault =>
      exact advances_put hknown hclosed happended htasks rfl rfl fun _ ↦
        .drop payload hphase (.inr ⟨fault, hread⟩)
    | ok message =>
      exact advances_put hknown hclosed happended htasks rfl rfl fun _ ↦ .receive payload hphase

theorem advances_popEnded (hknown : transport.task? task.number = some task) (ending : PopEnd)
    (hphase : task.phase = .popping) :
    transport.Advances task (transport.event? task.number (.popEnded task.number ending))
      (transport.popEnded task ending) := by
  have hevent : transport.phase? task.number = some .popping := by
    rw [phase?, hknown, Option.map_some, hphase]
  unfold event? popEnded
  rw [hevent, if_pos (by rfl)]
  cases ending with
  | element =>
    cases hlist : transport.list with
    | nil => exact advances_refl hknown (by rw [hphase]; rfl)
    | cons payload list => exact advances_receive hknown rfl rfl rfl hphase
  | nothing =>
    exact advances_goOn .looking _ hknown hphase rfl rfl rfl False.elim
  | failed =>
    exact advances_goOn .resting _ hknown hphase rfl rfl rfl False.elim

theorem advances_handled (hknown : transport.task? task.number = some task) (succeeded : Bool)
    (hphase : task.phase = .handling payload) :
    transport.Advances task (transport.event? task.number (.handled task.number succeeded))
      (transport.handled task payload succeeded) := by
  have hevent : transport.phase? task.number = some (.handling payload) := by
    rw [phase?, hknown, Option.map_some, hphase]
  unfold event? handled
  rw [hevent, if_pos (by rfl)]
  cases succeeded with
  | true =>
    exact advances_put hknown rfl (List.append_nil _).symm rfl rfl rfl fun _ ↦
      .handle payload hphase
  | false =>
    exact advances_goOn (.push payload .looking) _ hknown hphase rfl rfl rfl False.elim

theorem advances_rested (payload : Bytes) (hknown : transport.task? task.number = some task)
    (hphase : task.phase = .push payload .pausing ∨ task.phase = .resting) :
    transport.Advances task none (transport.rested task) := by
  unfold rested
  rcases hphase with hphase | hphase
  · rw [hphase]
    exact advances_goOn (.push payload .looking) _ hknown hphase rfl rfl rfl False.elim
  · rw [hphase]
    exact advances_goOn .looking _ hknown hphase rfl rfl rfl False.elim

/-- A step that is about a task and possible takes this task one step on. -/
theorem advances_stepOf? {step : Step} (hknown : transport.task? task.number = some task)
    (hstep : step.task? = some task.number) (h : transport.stepOf? task step = some after) :
    transport.Advances task (transport.event? task.number step) after := by
  cases step with
  | send _ _ => cases hstep
  | consume _ => cases hstep
  | close => cases hstep
  | deposit _ => cases hstep
  | withdraw => cases hstep
  | look number =>
    obtain rfl : number = task.number := Option.some.inj hstep
    have hevent : transport.event? task.number (.look task.number) = none := by simp [event?]
    rw [hevent]
    simp only [stepOf?] at h
    split at h
    · next hphase => cases h; exact advances_look _ hknown (.inr hphase)
    · next hphase => cases h; exact advances_look [] hknown (.inl hphase)
    · cases h
  | take number =>
    obtain rfl : number = task.number := Option.some.inj hstep
    have hevent : transport.event? task.number (.take task.number) = none := by simp [event?]
    rw [hevent]
    simp only [stepOf?] at h
    split at h
    · next hphase =>
      split at h
      · cases h; exact advances_take hknown hphase
      · cases h
    · cases h
  | dialled number ending =>
    obtain rfl : number = task.number := Option.some.inj hstep
    simp only [stepOf?] at h
    split at h
    · next hdialing => cases h; exact advances_dialled hknown ending hdialing
    · cases h
  | pushed number acknowledged =>
    obtain rfl : number = task.number := Option.some.inj hstep
    simp only [stepOf?] at h
    split at h
    · next hphase => cases h; exact advances_pushed hknown acknowledged (.inl hphase)
    · next hphase => cases h; exact advances_pushed hknown acknowledged (.inr hphase)
    · cases h
  | popEnded number ending =>
    obtain rfl : number = task.number := Option.some.inj hstep
    simp only [stepOf?] at h
    split at h
    · next hphase =>
      split at h
      · cases h
      · cases h; exact advances_popEnded hknown ending hphase
    · cases h
  | handled number succeeded =>
    obtain rfl : number = task.number := Option.some.inj hstep
    simp only [stepOf?] at h
    split at h
    · next hphase => cases h; exact advances_handled hknown succeeded hphase
    · cases h
  | rested number =>
    obtain rfl : number = task.number := Option.some.inj hstep
    have hevent : transport.event? task.number (.rested task.number) = none := by simp [event?]
    rw [hevent]
    simp only [stepOf?] at h
    split at h
    · next hphase => cases h; exact advances_rested _ hknown (.inl hphase)
    · next hphase => cases h; exact advances_rested [] hknown (.inr hphase)
    · cases h

end Operations

/-! ### Any step -/

theorem event?_of_ne {step : Step} (hstep : step.task? ≠ some number) :
    transport.event? number step = none := if_neg hstep

theorem event?_of_unknown (hunknown : transport.task? number = none) (step : Step) :
    transport.event? number step = none := by
  have hphase : transport.phase? number = none := by rw [phase?, hunknown]; rfl
  unfold event?
  split
  · rw [hphase]
    split <;> first | rfl | contradiction
  · rfl

/-- A step is about no task that has begun, or one task takes it. -/
theorem step?_eq {step : Step} (h : transport.step? step = some after) :
    (step.task? = none ∧ (after.closed = true ↔ transport.closed = true ∨ step = .close) ∧
        after.appended = transport.appended ∧
        ((∃ begun purpose, transport.task? begun = none ∧ after = transport.begin begun purpose) ∨
          after.tasks = transport.tasks)) ∨
      ∃ task : Task, step.task? = some task.number ∧ transport.task? task.number = some task ∧
        transport.stepOf? task step = some after := by
  have hsome : ∀ taken : Nat, step.task? = some taken →
      (transport.task? taken).bind (fun task ↦ transport.stepOf? task step) = some after →
      ∃ task : Task, step.task? = some task.number ∧ transport.task? task.number = some task ∧
        transport.stepOf? task step = some after := by
    intro taken htaken hbind
    obtain ⟨task, htask, hstepOf⟩ := Option.bind_eq_some_iff.mp hbind
    have hnumber : task.number = taken := number_of_task? htask
    exact ⟨task, hnumber ▸ htaken, hnumber ▸ htask, hstepOf⟩
  cases step with
  | send number payload =>
    simp only [step?] at h
    split at h
    · cases h
    · next hfresh =>
      cases h
      exact .inl ⟨rfl, by simp [begin], rfl, .inl ⟨number, _, by simpa using hfresh, rfl⟩⟩
  | consume number =>
    simp only [step?] at h
    split at h
    · cases h
    · next hfresh =>
      cases h
      exact .inl ⟨rfl, by simp [begin], rfl, .inl ⟨number, _, by simpa using hfresh, rfl⟩⟩
  | close => cases h; exact .inl ⟨rfl, by simp [close], rfl, .inr rfl⟩
  | deposit payload => cases h; exact .inl ⟨rfl, by simp, rfl, .inr rfl⟩
  | withdraw => cases h; exact .inl ⟨rfl, by simp, rfl, .inr rfl⟩
  | look number => exact .inr (hsome number rfl h)
  | take number => exact .inr (hsome number rfl h)
  | dialled number ending => exact .inr (hsome number rfl h)
  | pushed number acknowledged => exact .inr (hsome number rfl h)
  | popEnded number ending => exact .inr (hsome number rfl h)
  | handled number succeeded => exact .inr (hsome number rfl h)
  | rested number => exact .inr (hsome number rfl h)

theorem step?_of_stepOf? {step : Step} (hstep : step.task? = some number)
    (htask : transport.task? number = some task) (h : transport.stepOf? task step = some after) :
    transport.step? step = some after := by
  have hbind : (step.task?.bind transport.task?).bind (fun task ↦ transport.stepOf? task step) =
      some after := by rw [hstep, Option.bind_some, htask, Option.bind_some, h]
  cases step <;> first | exact hbind | cases hstep

theorem task?_eq_none_of_step? {step : Step} (h : transport.step? step = some after)
    (hunknown : after.task? number = none) : transport.task? number = none := by
  rcases step?_eq h with ⟨-, -, -, hbegun | htasks⟩ | ⟨task, hstep, hknown, hstepOf⟩
  · obtain ⟨begun, purpose, hfresh, rfl⟩ := hbegun
    rw [task?_begin purpose hfresh] at hunknown
    split at hunknown
    · cases hunknown
    · exact hunknown
  · unfold task? at hunknown ⊢
    rw [← htasks, hunknown]
  · obtain ⟨-, -, moved, -, -, -, hlookup⟩ := advances_stepOf? hknown hstep hstepOf
    rw [hlookup] at hunknown
    split at hunknown
    · cases hunknown
    · exact hunknown

/-- What a step does to a consumer: it begins it, lets it be, or takes it one step on. -/
theorem step?_cases {step : Step} {next : Task} (h : transport.step? step = some after)
    (hnext : after.task? number = some next) (hconsume : next.purpose = .consume) :
    (transport.task? number = none ∧ next = Task.ofPurpose number .consume) ∨
      ∃ task : Task, transport.task? number = some task ∧ task.purpose = .consume ∧
        (transport.closed = true → after.closed = true) ∧
        ((next = task ∧ transport.event? number step = none) ∨
          task.Moves transport.closed (transport.event? number step) next) := by
  rcases step?_eq h with ⟨hnone, hsignal, -, hbegun | htasks⟩ | ⟨task, hstep, hknown, hstepOf⟩
  · obtain ⟨begun, purpose, hfresh, rfl⟩ := hbegun
    rw [task?_begin purpose hfresh] at hnext
    split at hnext
    · next hnumber =>
      cases purpose with
      | send payload => cases hnext; cases hconsume
      | consume => cases hnext; exact .inl ⟨hnumber ▸ hfresh, hnumber ▸ rfl⟩
    · exact .inr ⟨next, hnext, hconsume, fun hclosed ↦ hsignal.mpr (.inl hclosed),
        .inl ⟨rfl, event?_of_ne (by rw [hnone]; simp)⟩⟩
  · have hsame : transport.task? number = some next := by
      unfold task? at hnext ⊢
      rw [← htasks, hnext]
    exact .inr ⟨next, hsame, hconsume, fun hclosed ↦ hsignal.mpr (.inl hclosed),
      .inl ⟨rfl, event?_of_ne (by rw [hnone]; simp)⟩⟩
  · obtain ⟨hclosed, -, moved, -, hpurpose, hmoves, hlookup⟩ :=
      advances_stepOf? hknown hstep hstepOf
    rw [hlookup] at hnext
    split at hnext
    · next hmoved =>
      cases hnext
      rw [hmoved]
      have hconsumer : task.purpose = .consume := hpurpose ▸ hconsume
      exact .inr ⟨task, hknown, hconsumer, fun h ↦ hclosed ▸ h, .inr (hmoves hconsumer)⟩
    · next hother =>
      have hne : step.task? ≠ some number := by
        rw [hstep]
        exact fun hsame ↦ hother (Option.some.inj hsame).symm
      exact .inr ⟨next, hnext, hconsume, fun h ↦ hclosed ▸ h, .inl ⟨rfl, event?_of_ne hne⟩⟩

end Transport

end GelfCourier.Broker
