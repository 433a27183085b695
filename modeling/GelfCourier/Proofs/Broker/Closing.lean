import GelfCourier.Proofs.Broker.Sends

/-!
A transport that is being closed. Every send and every consumer that is under way has few steps
left, and calls on the broker at most once in each of the ways there are; only a dial for a pool
slot that is refused is repeated without end, because the slot is dialled for until that succeeds
and nobody looks whether the transport is closed.
-/

set_option autoImplicit false

namespace GelfCourier.Broker

open Transport (Step)

/-! ### What is left to do -/

/-- A way in which a push calls on the broker. -/
inductive Contact where
  /-- A dial for a pool slot that was refused. -/
  | refusal
  /-- A dial for a pool slot that succeeded. -/
  | connection
  /-- A push on a pooled connection. -/
  | push
  /-- A dial to give a payload back after a close. -/
  | redial
  /-- A push on the connection dialled last. -/
  | giveBack
  deriving DecidableEq

namespace Contact

/-- Every way but the refused dial, in the order in which one push goes through them. -/
def route : List Contact :=
  [.connection, .push, .redial, .giveBack]

end Contact

namespace Task

/-- The ways that a task may still take, when the transport is closed. -/
def ahead (task : Task) : List Contact :=
  match task.phase with
  | .push _ .claiming => Contact.route
  | .push _ .pushing => [.push, .redial, .giveBack]
  | .push _ .looking => [.redial, .giveBack]
  | .push _ .pausing => [.redial, .giveBack]
  | .handling _ => [.redial, .giveBack]
  | .popping => [.redial, .giveBack]
  | .redialing _ => [.redial, .giveBack]
  | .returning _ => [.giveBack]
  | .looking => []
  | .resting => []
  | .finished _ => []

/-- A bound on the steps that a task may still take when the transport is closed, not counting
refused dials. -/
def rank (making : Bool) (task : Task) : Nat :=
  match task.phase with
  | .push _ .claiming => if making then 8 else 9
  | .popping => if task.connection = none then 8 else 7
  | .push _ .pushing => 7
  | .push _ .pausing => 6
  | .handling _ => 6
  | .push _ .looking => 5
  | .redialing _ => 4
  | .returning _ => 3
  | .resting => 2
  | .looking => 1
  | .finished _ => 0

theorem ahead_sublist (task : Task) : task.ahead.Sublist Contact.route := by
  unfold ahead
  split <;> decide

theorem rank_le (making : Bool) (task : Task) : task.rank making ≤ 9 := by
  unfold rank
  split <;> first | (split <;> decide) | decide

end Task

namespace Transport

/-- How a task calls on the broker in a step. -/
def contact? (transport : Transport) (number : Nat) (step : Step) : Option Contact :=
  if step.task? = some number then
    match step, transport.phase? number with
    | .dialled _ .refused, some (.push _ .claiming) => some .refusal
    | .dialled _ (.connected _), some (.push _ .claiming) => some .connection
    | .pushed _ _, some (.push _ .pushing) => some .push
    | .dialled _ _, some (.redialing _) => some .redial
    | .pushed _ _, some (.returning _) => some .giveBack
    | _, _ => none
  else none

/-- Whether a task takes this step, and it is not a refused dial for a pool slot. -/
def goesOn (transport : Transport) (number : Nat) (step : Step) : Bool :=
  step.task? = some number ∧ transport.contact? number step ≠ some .refusal

/-- A number that is not in use has everything ahead. -/
def ahead (transport : Transport) (number : Nat) : List Contact :=
  ((transport.task? number).map Task.ahead).getD Contact.route

def rank (transport : Transport) (number : Nat) : Nat :=
  ((transport.task? number).map (Task.rank (transport.pool.isMaking number))).getD 9

variable {transport after : Transport} {task next : Task} {step : Step} {number : Nat}
  {pool : Pool Nat}

theorem contact?_of_ne (hstep : step.task? ≠ some number) :
    transport.contact? number step = none := if_neg hstep

theorem goesOn_of_ne (hstep : step.task? ≠ some number) : transport.goesOn number step = false := by
  simp [goesOn, hstep]

/-! ### One step of a closed transport -/

/-- One turn of a task, seen from the end of its work. -/
structure Nears (contact : Option Contact) (task next : Task) (making makes : Bool) : Prop where
  contact_ne : contact ≠ some .refusal
  ahead : (contact.toList ++ next.ahead).Sublist task.ahead
  rank : next.rank makes < task.rank making

/-- Assumes: a closed transport. -/
theorem nears_of_aside (haside : task.Aside transport.closed step next)
    (hclosed : transport.closed = true) (hknown : transport.task? task.number = some task)
    (making : Bool) :
    Nears (transport.contact? task.number step) task next making making := by
  have hphase : transport.phase? task.number = some task.phase := by rw [phase?, hknown]; rfl
  cases haside with
  | pop _ hopen =>
    rw [hclosed] at hopen
    cases hopen
  | _ =>
    constructor
    · simp_all [contact?, Step.task?]
    · simp_all [contact?, Step.task?, Task.ahead]
    · simp_all [Task.rank]

/-- Assumes: a closed transport. A turn that is no refused dial takes the next way ahead, if it
takes any, and brings the task nearer to its end. -/
theorem Turn.nears (hturn : transport.Turn task step pool next) (hplugged : transport.Plugged)
    (hclosed : transport.closed = true) (hknown : transport.task? task.number = some task) :
    (transport.contact? task.number step = some .refusal ∧ next = task ∧ pool = transport.pool ∧
        task.ahead = Contact.route) ∨
      Nears (transport.contact? task.number step) task next
        (transport.pool.isMaking task.number) (pool.isMaking task.number) := by
  have hseen : transport.phase? task.number = some task.phase := by rw [phase?, hknown]; rfl
  cases hturn with
  | aside haside => exact .inr (nears_of_aside haside hclosed hknown _)
  | claim payload hphase hopen =>
    rw [hclosed] at hopen
    cases hopen
  | refuse payload hphase hmaking =>
    refine .inl ⟨?_, rfl, rfl, by rw [Task.ahead, hphase]⟩
    simp [contact?, Step.task?, hseen, hphase]
  | hold payload hphase hready hobject =>
    refine .inr ⟨?_, ?_, ?_⟩
    · simp [contact?, Step.task?]
    · simp [contact?, Step.task?, Task.ahead, hphase, Contact.route]
    · simp only [Task.rank, hphase]
      split <;> decide
  | fill payload hphase hready hvacant =>
    -- The get waited until now, so it was not making the object yet.
    have hmade : transport.pool.isMaking task.number = false := by
      have hclaimant := hplugged.claimants task.number
      rw [hknown, Option.any_some, Task.isClaiming, hphase] at hclaimant
      exact Pool.isMaking_eq_false hclaimant (hplugged.accounted.granted_of_isReady hready)
    have hmakes := Pool.isMaking_take hvacant
    refine .inr ⟨?_, ?_, ?_⟩
    · simp [contact?, Step.task?]
    · simp [contact?, Step.task?]
    · simp [Task.rank, hphase, hmade, hmakes]
  | connect payload connection hphase hmaking =>
    refine .inr ⟨?_, ?_, ?_⟩
    · simp [contact?, Step.task?, hseen, hphase]
    · simp [contact?, Step.task?, hseen, Task.ahead, hphase, Contact.route]
    · simp [Task.rank, hphase, hmaking]
  | send payload sent hphase hpurpose =>
    refine .inr ⟨?_, ?_, ?_⟩
    · simp [contact?, Step.task?, hseen, hphase]
    · simp [contact?, Step.task?, hseen, Task.ahead, hphase]
    · simp [Task.rank, hphase]
  | giveBack payload hphase hpurpose =>
    refine .inr ⟨?_, ?_, ?_⟩
    · simp [contact?, Step.task?, hseen, hphase]
    · simp [contact?, Step.task?, hseen, Task.ahead, hphase]
    · simp [Task.rank, hphase]
  | fail payload hphase =>
    refine .inr ⟨?_, ?_, ?_⟩
    · simp [contact?, Step.task?, hseen, hphase]
    · simp [contact?, Step.task?, hseen, Task.ahead, hphase]
    · simp [Task.rank, hphase]

theorem rank_le (transport : Transport) (number : Nat) : transport.rank number ≤ 9 := by
  unfold rank
  cases transport.task? number with
  | none => exact Nat.le_refl _
  | some task => exact Task.rank_le _ task

theorem ahead_sublist (transport : Transport) (number : Nat) :
    (transport.ahead number).Sublist Contact.route := by
  unfold ahead
  cases transport.task? number with
  | none => exact List.Sublist.refl _
  | some task => exact Task.ahead_sublist task

theorem ahead_eq (hknown : transport.task? number = some task) :
    transport.ahead number = task.ahead := by
  rw [ahead, hknown]
  rfl

theorem rank_eq (hknown : transport.task? number = some task) :
    transport.rank number = task.rank (transport.pool.isMaking number) := by
  rw [rank, hknown]
  rfl

/-- Where a task stays and its slot too, it has as much ahead as before. -/
theorem ahead_rank_congr (htask : after.task? number = transport.task? number)
    (hmaking : after.pool.isMaking number = transport.pool.isMaking number) :
    after.ahead number = transport.ahead number ∧ after.rank number = transport.rank number := by
  unfold ahead rank
  rw [htask, hmaking]
  exact ⟨rfl, rfl⟩

/-- A task that begins has less ahead than its number had. -/
theorem ahead_rank_begin {begun : Nat} (purpose : Purpose)
    (hfresh : transport.task? begun = none) (number : Nat) :
    ((transport.begin begun purpose).ahead number).Sublist (transport.ahead number) ∧
      (transport.begin begun purpose).rank number ≤ transport.rank number := by
  have hlookup := task?_begin purpose hfresh number
  by_cases hbegun : number = begun
  · subst hbegun
    rw [if_pos rfl] at hlookup
    rw [ahead_eq hlookup, rank_eq hlookup, ahead, rank, hfresh]
    exact ⟨Task.ahead_sublist _, Task.rank_le _ _⟩
  · rw [if_neg hbegun] at hlookup
    obtain ⟨hahead, hrank⟩ := ahead_rank_congr hlookup rfl
    rw [hahead, hrank]
    exact ⟨List.Sublist.refl _, Nat.le_refl _⟩

/-- A step of a closed transport, seen by one task: the task is refused a dial for its slot, or what
it does next is among what it had ahead, and it comes nearer to its end. -/
inductive Sees (transport after : Transport) (number : Nat) (step : Step) : Prop where
  | refusal (hcontact : transport.contact? number step = some .refusal)
      (hahead : transport.ahead number = Contact.route)
      (hafter : after.ahead number = Contact.route)
      (hrank : after.rank number = transport.rank number)
  | progress (hcontact : transport.contact? number step ≠ some .refusal)
      (hahead : ((transport.contact? number step).toList ++ after.ahead number).Sublist
        (transport.ahead number))
      (hrank : after.rank number + (transport.goesOn number step).toNat ≤ transport.rank number)

/-- Assumes: a step of another task, or of none. -/
theorem sees_of_ne (hother : step.task? ≠ some number)
    (hahead : (after.ahead number).Sublist (transport.ahead number))
    (hrank : after.rank number ≤ transport.rank number) : Sees transport after number step := by
  refine .progress ?_ ?_ ?_
  · rw [contact?_of_ne hother]
    exact (Option.some_ne_none _).symm
  · rw [contact?_of_ne hother]
    exact hahead
  · rw [goesOn_of_ne hother]
    exact hrank

theorem sees_of_step? (hplugged : transport.Plugged) (hclosed : transport.closed = true)
    (possible : transport.step? step = some after) (number : Nat) :
    Sees transport after number step := by
  rcases turned_of_step? possible with
    ⟨hnone, hpool, htasks⟩ | ⟨task, next, hstep, hknown, hturned⟩
  · have hother : step.task? ≠ some number := by rw [hnone]; exact (Option.some_ne_none _).symm
    rcases htasks with ⟨begun, purpose, hfresh, rfl⟩ | htasks
    · obtain ⟨hahead, hrank⟩ := ahead_rank_begin purpose hfresh number
      exact sees_of_ne hother hahead hrank
    · have hsame : after.task? number = transport.task? number := by
        unfold task?
        rw [htasks]
      obtain ⟨hahead, hrank⟩ := ahead_rank_congr hsame (by rw [hpool])
      exact sees_of_ne hother (hahead ▸ List.Sublist.refl _) (Nat.le_of_eq hrank)
  · have hlookup := hturned.lookup number
    by_cases hnumber : number = task.number
    · subst hnumber
      rw [if_pos rfl] at hlookup
      rcases hturned.turn.nears hplugged hclosed hknown with
        ⟨hrefused, rfl, hpool, hroute⟩ | ⟨hgoes, hless, hlower⟩
      · refine .refusal hrefused (by rw [ahead_eq hknown, hroute])
          (by rw [ahead_eq hlookup, hroute]) ?_
        rw [rank_eq hknown, rank_eq hlookup, hpool]
      · have hgo : transport.goesOn task.number step = true := by simp [goesOn, hstep, hgoes]
        refine .progress hgoes ?_ ?_
        · rw [ahead_eq hknown, ahead_eq hlookup]
          exact hless
        · rw [rank_eq hknown, rank_eq hlookup, hgo]
          exact hlower
    · rw [if_neg hnumber] at hlookup
      have hother : step.task? ≠ some number := by
        rw [hstep]
        exact fun hsame ↦ hnumber (Option.some.inj hsame).symm
      obtain ⟨hahead, hrank⟩ :=
        ahead_rank_congr hlookup (hturned.turn.isMaking_of_ne hnumber)
      exact sees_of_ne hother (hahead ▸ List.Sublist.refl _) (Nat.le_of_eq hrank)

/-! ### Runs of a closed transport -/

/-- How a task calls on the broker in a run, in order. -/
def contacts (number : Nat) (history : List (Transport × Step)) : List Contact :=
  Run.observed (fun transport step ↦ transport.contact? number step) history

/-- The steps of a task in a run, without refused dials for its pool slot. -/
def turns (number : Nat) (history : List (Transport × Step)) : List (Transport × Step) :=
  history.filter fun entry ↦ entry.1.goesOn number entry.2

/-- What a task has done since the close, and what it has ahead. -/
structure Winding (number : Nat) (history : List (Transport × Step)) (transport : Transport) :
    Prop where
  plugged : transport.Plugged
  closed : transport.closed = true
  /-- Refused dials come first, and after them at most one call of each kind. -/
  contacts : ∃ refusals rest,
    contacts number history = List.replicate refusals .refusal ++ rest ∧
      (rest ++ transport.ahead number).Sublist Contact.route
  turns : (turns number history).length + transport.rank number ≤ 9

/-- Only the close closes a transport, and no step opens it again. -/
theorem closed_iff_of_step? (possible : transport.step? step = some after) :
    after.closed = true ↔ transport.closed = true ∨ step = .close := by
  rcases step?_eq possible with ⟨-, hkept, -⟩ | ⟨task, hstep, hknown, hstepOf⟩
  · exact hkept
  · have hother : step ≠ .close := by
      rintro rfl
      cases hstep
    rw [(advances_stepOf? hknown hstep hstepOf).closed_eq]
    simp [hother]

theorem closed_of_step? (hclosed : transport.closed = true)
    (possible : transport.step? step = some after) : after.closed = true :=
  (closed_iff_of_step? possible).mpr (.inl hclosed)

theorem winding {first : Transport} {history : List (Transport × Step)} (hplugged : first.Plugged)
    (hclosed : first.closed = true) (run : Run step? first history transport) (number : Nat) :
    Winding number history transport := by
  induction run with
  | start =>
    refine ⟨hplugged, hclosed, ⟨0, [], rfl, ahead_sublist first number⟩, ?_⟩
    rw [turns, List.filter_nil, List.length_nil, Nat.zero_add]
    exact rank_le first number
  | @step history before after step run possible ih =>
    obtain ⟨hplugged, hclosed, ⟨refusals, rest, hcontacts, hrest⟩, hturns⟩ := ih
    have hseen : contacts number (history ++ [(before, step)]) =
        List.replicate refusals .refusal ++ rest ++ (before.contact? number step).toList := by
      rw [contacts, Run.observed_append_singleton, ← contacts, hcontacts]
    have htaken : (turns number (history ++ [(before, step)])).length =
        (turns number history).length + (before.goesOn number step).toNat := by
      rw [turns, List.filter_append, List.length_append, ← turns]
      cases hgoes : before.goesOn number step <;> simp [hgoes]
    refine ⟨hplugged.of_step? possible, closed_of_step? hclosed possible, ?_, ?_⟩
    · cases sees_of_step? hplugged hclosed possible number with
      | refusal hcontact hahead hafter hrank =>
        -- With the whole route ahead nothing but refusals can have happened.
        have hnil : rest = [] := by
          rw [hahead] at hrest
          have hlength := hrest.length_le
          rw [List.length_append] at hlength
          exact List.eq_nil_of_length_eq_zero (by omega)
        refine ⟨refusals + 1, [], ?_, by rw [hafter]; exact List.Sublist.refl _⟩
        rw [hseen, hcontact, hnil, List.append_nil, List.append_nil, List.replicate_succ']
        rfl
      | progress hcontact hahead hrank =>
        refine ⟨refusals, rest ++ (before.contact? number step).toList, ?_, ?_⟩
        · rw [hseen, List.append_assoc]
        · rw [List.append_assoc]
          exact (hahead.append_left rest).trans hrest
    · rw [htaken]
      cases sees_of_step? hplugged hclosed possible number with
      | refusal hcontact hahead hafter hrank =>
        have hstays : before.goesOn number step = false := by simp [goesOn, hcontact]
        rw [hstays, hrank]
        exact hturns
      | progress hcontact hahead hrank => omega

/-- A task that is not over can take a step that is no refused dial, unless it waits for a slot. -/
theorem exists_step (hplugged : transport.Plugged) (htask : transport.task? number = some task)
    (hbusy : task.phase.isFinished = false) :
    (∃ step after, transport.step? step = some after ∧ transport.goesOn number step = true) ∨
      number ∈ transport.pool.idle.waiting := by
  have hnumber := number_of_task? htask
  have hseen : transport.phase? number = some task.phase := by rw [phase?, htask]; rfl
  have hgo : ∀ step after, step.task? = some number → transport.stepOf? task step = some after →
      transport.contact? number step ≠ some .refusal →
      (∃ step after, transport.step? step = some after ∧ transport.goesOn number step = true) ∨
        number ∈ transport.pool.idle.waiting := fun step after hstep hstepOf hcontact ↦
    .inl ⟨step, after, step?_of_stepOf? hstep htask hstepOf, by simp [goesOn, hstep, hcontact]⟩
  cases hphase : task.phase with
  | push payload phase =>
    cases phase with
    | looking =>
      exact hgo (.look number) _ rfl (by rw [stepOf?, hphase]) (by simp [contact?])
    | claiming =>
      have hclaimant := hplugged.claimants number
      rw [htask, Option.any_some, Task.isClaiming, hphase] at hclaimant
      have hmem : number ∈ transport.pool.claimants := by
        rw [← List.count_pos_iff, hclaimant]
        exact Nat.one_pos
      rcases List.mem_append.mp hmem with hpopper | hmaking
      · rcases List.mem_append.mp hpopper with hwaiting | hgranted
        · exact .inr hwaiting
        · have hready : transport.pool.isReady task.number = true := by
            rw [hnumber, Pool.isReady, hplugged.accounted.idle.isReady_eq]
            exact List.contains_iff_mem.mpr hgranted
          exact hgo (.take number) (transport.take task payload) rfl
            (by simp only [stepOf?, hphase, if_pos hready]) (by simp [contact?])
      · have hdialing : transport.isDialing task = true := by
          rw [isDialing, hphase, hnumber]
          exact List.contains_iff_mem.mpr hmaking
        exact hgo (.dialled number (.connected 0)) _ rfl (by rw [stepOf?, if_pos hdialing])
          (by simp [contact?, hseen, hphase])
    | pushing =>
      exact hgo (.pushed number true) _ rfl (by rw [stepOf?, hphase])
        (by simp [contact?, hseen, hphase])
    | pausing => exact hgo (.rested number) _ rfl (by rw [stepOf?, hphase]) (by simp [contact?])
  | looking => exact hgo (.look number) _ rfl (by rw [stepOf?, hphase]) (by simp [contact?])
  | popping =>
    by_cases hnone : task.connection.isNone = true
    · have hdialing : transport.isDialing task = true := by
        rw [isDialing, hphase]
        exact hnone
      exact hgo (.dialled number (.connected 0)) _ rfl (by rw [stepOf?, if_pos hdialing])
        (by simp [contact?, hseen, hphase])
    · have hpossible : ¬ (task.connection.isNone ||
          (PopEnd.nothing == .element && transport.list.isEmpty)) = true := by
        rw [Bool.eq_false_iff.mpr hnone]
        exact Bool.false_ne_true
      exact hgo (.popEnded number .nothing) (transport.popEnded task .nothing) rfl
        (by simp only [stepOf?, hphase, if_neg hpossible]) (by simp [contact?])
  | handling payload =>
    exact hgo (.handled number true) _ rfl (by rw [stepOf?, hphase]) (by simp [contact?])
  | redialing payload =>
    have hdialing : transport.isDialing task = true := by rw [isDialing, hphase]
    exact hgo (.dialled number (.connected 0)) _ rfl (by rw [stepOf?, if_pos hdialing])
      (by simp [contact?, hseen, hphase])
  | returning payload =>
    exact hgo (.pushed number true) _ rfl (by rw [stepOf?, hphase])
      (by simp [contact?, hseen, hphase])
  | resting => exact hgo (.rested number) _ rfl (by rw [stepOf?, hphase]) (by simp [contact?])
  | finished result =>
    rw [hphase] at hbusy
    cases hbusy

/-! ### Closing a transport -/

/-- What a task does after the close. -/
structure Closing (number : Nat) (history : List (Transport × Step)) (transport : Transport) :
    Prop where
  /-- Refused dials for the task's pool slot, and then at most one call of each other kind. -/
  contacts : ∃ refusals rest,
    contacts number history = List.replicate refusals .refusal ++ rest ∧
      rest.Sublist Contact.route
  /-- The task takes few steps other than these refused dials. -/
  turns_le : (turns number history).length ≤ 9
  /-- It can take one until it is over, unless all slots are with others. -/
  ready : ∀ task, transport.task? number = some task → task.phase.isFinished = false →
    (∃ step after, transport.step? step = some after ∧ transport.goesOn number step = true) ∨
      number ∈ transport.pool.idle.waiting
  /-- A send that is over was acknowledged once, or it was refused and nothing was taken in. -/
  sent : ∀ task payload, transport.task? number = some task → task.purpose = .send payload →
    ∀ result, task.phase = .finished result →
      (result = .ok () ∧
        (transport.appended.filter fun push ↦ push.1 = number) = [(number, payload)]) ∨
      (result = .error .closed ∧ (transport.appended.filter fun push ↦ push.1 = number) = [])

/-- Once a transport is closed, every task winds up, whatever the broker does and whatever the
others do; what may go on without end is dialling for a pool slot. -/
theorem closing_of_run {settings : BrokerSettings} {list : List Bytes} {first : Transport}
    {earlier history : List (Transport × Step)}
    (before : Run step? (ofSettings settings list) earlier first) (hclosed : first.closed = true)
    (run : Run step? first history transport) (number : Nat) :
    Closing number history transport := by
  obtain ⟨hplugged, -, ⟨refusals, rest, hcontacts, hrest⟩, hturns⟩ :=
    winding (plugged before) hclosed run number
  exact ⟨⟨refusals, rest, hcontacts, (List.sublist_append_left _ _).trans hrest⟩, by omega,
    fun task htask hbusy ↦ exists_step hplugged htask hbusy,
    fun task payload htask hpurpose result hresult ↦
      appended_of_finished (before.append run) htask hpurpose hresult⟩

/-- Two sends are closed: one pushes, and the other dials. -/
def interruptedSteps (payload : Bytes) : List Step :=
  [.send 1 payload, .look 1, .dialled 1 (.connected 0), .send 2 payload, .look 2, .close]

theorem closing_of_interruptedSteps : ∃ earlier first history transport,
    Run step? (ofSettings {} []) earlier first ∧ first.closed = true ∧
      Run step? first history transport ∧
      contacts 1 history = [.push] ∧
      contacts 2 history = [.refusal, .refusal, .connection, .push] ∧
      Closing 1 history transport ∧ Closing 2 history transport := by
  have hfollow : ((Run.follow? step? (ofSettings {} []) (interruptedSteps [1])).bind fun opened ↦
      (Run.follow? step? opened.2 [.pushed 1 false, .dialled 2 .refused, .dialled 2 .refused,
        .dialled 2 (.connected 1), .pushed 2 true, .rested 1, .look 1]).map fun taken ↦
          (opened.2.closed, contacts 1 taken.1, contacts 2 taken.1)) =
      some (true, [.push], [.refusal, .refusal, .connection, .push]) := by
    decide
  obtain ⟨⟨earlier, first⟩, hopened, hrest⟩ := Option.bind_eq_some_iff.mp hfollow
  obtain ⟨⟨history, transport⟩, htaken, hseen⟩ := Option.map_eq_some_iff.mp hrest
  simp only [Prod.mk.injEq] at hseen
  obtain ⟨hclosed, hone, htwo⟩ := hseen
  have before := Run.of_follow? hopened
  have run := Run.of_follow? htaken
  exact ⟨earlier, first, history, transport, before, hclosed, run, hone, htwo,
    closing_of_run before hclosed run 1, closing_of_run before hclosed run 2⟩

/-- A refused dial for a slot leaves everything as it was, whether the transport is closed or not.
-/
theorem step?_refused (htask : transport.task? number = some task)
    (hclaiming : task.isClaiming = true) (hmaking : transport.pool.isMaking number = true) :
    transport.step? (.dialled number .refused) = some transport ∧
      transport.contact? number (.dialled number .refused) = some .refusal := by
  have hnumber := number_of_task? htask
  have hseen : transport.phase? number = some task.phase := by rw [phase?, htask]; rfl
  unfold Task.isClaiming at hclaiming
  split at hclaiming
  · next payload hphase =>
    have hdialing : transport.isDialing task = true := by
      rw [isDialing, hphase, hnumber]
      exact hmaking
    refine ⟨step?_of_stepOf? rfl htask ?_, by simp [contact?, Step.task?, hseen, hphase]⟩
    simp only [stepOf?, if_pos hdialing, dialled, hphase]
  · cases hclaiming

/-- A send that dials for its slot when the transport is closed may be refused any number of times
more, and is not over. -/
theorem dials_after_close : ∃ earlier transport task,
    Run step? (ofSettings {} []) earlier transport ∧ transport.closed = true ∧
      transport.task? 1 = some task ∧ task.isClaiming = true ∧
      ∀ count, ∃ history, Run step? transport history transport ∧
        contacts 1 history = List.replicate count .refusal := by
  have hfollow : ((Run.follow? step? (ofSettings {} []) [.send 1 [], .look 1, .close]).bind
      fun taken ↦ (taken.2.task? 1).map fun task ↦
        (taken.2.closed, taken.2.pool.isMaking 1, task.isClaiming)) = some (true, true, true) := by
    decide
  obtain ⟨⟨earlier, transport⟩, htaken, hrest⟩ := Option.bind_eq_some_iff.mp hfollow
  obtain ⟨task, htask, hseen⟩ := Option.map_eq_some_iff.mp hrest
  simp only [Prod.mk.injEq] at hseen
  obtain ⟨hclosed, hmaking, hclaiming⟩ := hseen
  obtain ⟨hrefused, hrefusal⟩ := step?_refused htask hclaiming hmaking
  refine ⟨earlier, transport, task, Run.of_follow? htaken, hclosed, htask, hclaiming,
    fun count ↦ ?_⟩
  induction count with
  | zero => exact ⟨[], .start, rfl⟩
  | succ count ih =>
    obtain ⟨history, run, hcontacts⟩ := ih
    refine ⟨_, run.step hrefused, ?_⟩
    rw [contacts, Run.observed_append_singleton, ← contacts, hcontacts, hrefusal,
      List.replicate_succ']
    rfl

end Transport

end GelfCourier.Broker
