import GelfCourier.Proofs.Broker.Closing
import GelfCourier.Proofs.Broker.Copies

/-!
A send tries its push again until the broker acknowledges it or the transport is closed. However
often it fails, the broker's list gets one copy of its payload just if the send succeeds, and none
just if it is turned away by the close. The slot of each push goes back when the push ends, vacant
after a failure, and the get that has waited longest is granted it.
-/

set_option autoImplicit false

namespace GelfCourier.Broker

open Transport (Step)

namespace Transport

variable {settings : BrokerSettings} {list : List Bytes} {transport after first later : Transport}
  {history longer : List (Transport × Step)} {task next : Task} {step : Step} {number : Nat}
  {pool : Pool Nat} {payload : Bytes}

/-! ### Sends after the close -/

/-- What a send comes to that has begun after the close. -/
structure Late (number : Nat) (longer : List (Transport × Step)) (task : Task) : Prop where
  /-- It only looks, so that it takes no slot and calls on nobody. -/
  steps : ∀ entry ∈ longer, entry.2.task? = some number → entry.2 = .look number
  phase : (∃ payload, task.phase = .push payload .looking) ∨
    task.phase = .finished (.error .closed)

theorem not_taken_of_unknown (possible : transport.step? step = some after)
    (hunknown : transport.task? number = none) : step.task? ≠ some number := by
  intro hstep
  rcases step?_eq possible with ⟨hnone, -⟩ | ⟨task, htaken, hknown, -⟩
  · rw [hnone] at hstep
    cases hstep
  · have hnumber : task.number = number := Option.some.inj (htaken.symm.trans hstep)
    rw [hnumber, hunknown] at hknown
    cases hknown

/-- A number that is not in use has taken no step. -/
theorem steps_of_unknown (run : Run step? first longer later)
    (hunknown : later.task? number = none) :
    ∀ entry ∈ longer, entry.2.task? ≠ some number := by
  induction run with
  | start => exact fun _ hentry ↦ nomatch hentry
  | step run possible ih =>
    have hbefore := task?_eq_none_of_step? possible hunknown
    exact List.forall_mem_append.mpr ⟨ih hbefore,
      List.forall_mem_singleton.mpr (not_taken_of_unknown possible hbefore)⟩

theorem closed_of_run (hclosed : first.closed = true) (run : Run step? first longer later) :
    later.closed = true :=
  run.invariant (fun transport ↦ transport.closed = true) hclosed fun _ _ _ h possible ↦
    closed_of_step? h possible

/-- A send that is about to look when the transport is closed has one step left. -/
theorem Turn.eq_look (hturn : transport.Turn task step pool next)
    (hclosed : transport.closed = true) (hpurpose : task.purpose = .send payload)
    {sent : Bytes} (hphase : task.phase = .push sent .looking) :
    step = .look task.number ∧ next.phase = .finished (.error .closed) := by
  cases hturn with
  | aside haside =>
    cases haside with
    | giveUp => exact ⟨rfl, rfl⟩
    | turnBack other hother hclosed' hconsume =>
      rw [hpurpose] at hconsume
      cases hconsume
    | _ => simp_all
  | claim other hother hopen =>
    rw [hclosed] at hopen
    cases hopen
  | _ => simp_all

theorem late_of_run (hclosed : first.closed = true) (hfresh : first.task? number = none)
    (run : Run step? first longer later) (htask : later.task? number = some task)
    (hpurpose : task.purpose = .send payload) : Late number longer task := by
  induction run generalizing task with
  | start =>
    rw [hfresh] at htask
    cases htask
  | @step longer before after step run possible ih =>
    rcases task_of_step? possible htask with
      ⟨hunknown, purpose, rfl⟩ | ⟨hknown, hother⟩ | ⟨old, hknown, rfl, hturn⟩
    · refine ⟨List.forall_mem_append.mpr ⟨fun entry hentry hown ↦ ?_,
        List.forall_mem_singleton.mpr fun hown ↦ ?_⟩, ?_⟩
      · exact (steps_of_unknown run hunknown entry hentry hown).elim
      · exact (not_taken_of_unknown possible hunknown hown).elim
      · cases purpose with
        | send sent => exact .inl ⟨sent, rfl⟩
        | consume => cases hpurpose
    · have hlate := ih hknown hpurpose
      exact ⟨List.forall_mem_append.mpr ⟨hlate.steps,
        List.forall_mem_singleton.mpr fun hown ↦ (hother hown).elim⟩, hlate.phase⟩
    · have hsends := hturn.purpose_eq ▸ hpurpose
      obtain ⟨hlooks, ⟨sent, hphase⟩ | hphase⟩ := ih hknown hsends
      · obtain ⟨hlook, hover⟩ := hturn.eq_look (closed_of_run hclosed run) hsends hphase
        exact ⟨List.forall_mem_append.mpr ⟨hlooks, List.forall_mem_singleton.mpr fun _ ↦ hlook⟩,
          .inr hover⟩
      · have hbusy := hturn.isFinished_eq
        rw [hphase] at hbusy
        cases hbusy

/-- A send that looks after the close is over with this step. -/
theorem step?_look_of_closed (hclosed : transport.closed = true)
    (htask : transport.task? number = some task) (hpurpose : task.purpose = .send payload)
    (hphase : task.phase = .push payload .looking) :
    transport.step? (.look number) =
      some (transport.put { task with phase := .finished (.error .closed) }) := by
  refine step?_of_stepOf? rfl htask ?_
  simp only [stepOf?, look, hphase, hclosed, hpurpose, if_true]

/-! ### The slot of a push -/

theorem Turn.capacity_eq (hturn : transport.Turn task step pool next) :
    pool.capacity = transport.pool.capacity := by
  have hback : ∀ number keep,
      (transport.pool.giveBack number keep).signal.capacity = transport.pool.capacity := by
    intro number keep
    unfold Pool.giveBack
    cases transport.pool.object? number <;> rfl
  have htake : ∀ number, (transport.pool.take number).capacity = transport.pool.capacity := by
    intro number
    rcases Pool.take_eq transport.pool number with ⟨object, htake⟩ | htake <;> rw [htake]
  cases hturn with
  | aside haside => rfl
  | claim payload hphase hopen =>
    unfold Pool.ask
    split <;> rfl
  | hold payload hphase hready hobject => exact htake _
  | fill payload hphase hready hvacant => exact htake _
  | connect payload connection hphase hmaking => rfl
  | refuse payload hphase hmaking => rfl
  | send payload sent hphase hpurpose => exact hback _ _
  | giveBack payload hphase hpurpose => exact hback _ _
  | fail payload hphase => exact hback _ _

theorem capacity_eq (run : Run step? (ofSettings settings list) history transport) :
    transport.pool.capacity = max settings.poolSize 1 := by
  refine run.invariant (fun transport ↦ transport.pool.capacity = max settings.poolSize 1) rfl ?_
  intro before step after hcapacity possible
  rcases turned_of_step? possible with ⟨-, hpool, -⟩ | ⟨task, next, -, -, hturned⟩
  · rw [hpool]
    exact hcapacity
  · exact hturned.turn.capacity_eq.trans hcapacity

/-- When a push ends its connection goes back, or leaves its slot vacant. -/
theorem Turn.pool_eq {acknowledged : Bool}
    (hturn : transport.Turn task (.pushed task.number acknowledged) pool next)
    (hphase : task.phase = .push payload .pushing) :
    pool = (transport.pool.giveBack task.number acknowledged).signal := by
  cases hturn with
  | aside haside =>
    cases haside with
    | giveBack other hother => rw [hphase] at hother; cases hother
    | losePushing other hother => rw [hphase] at hother; cases hother
  | send other sent hother hpurpose => rfl
  | giveBack other hother hpurpose => rfl
  | fail other hother => rfl

theorem returns_of_pushed {acknowledged : Bool} {connection : Nat}
    (htask : transport.task? number = some task) (hphase : task.phase = .push payload .pushing)
    (hobject : transport.pool.object? number = some connection)
    (possible : transport.step? (.pushed number acknowledged) = some after) :
    Pool.Returns transport.pool number (if acknowledged then some connection else none)
      after.pool := by
  rcases turned_of_step? possible with ⟨hnone, -⟩ | ⟨found, next, hstep, hknown, hturned⟩
  · cases hnone
  · obtain rfl : number = found.number := Option.some.inj hstep
    obtain rfl : task = found := Option.some.inj (htask.symm.trans hknown)
    rw [hturned.turn.pool_eq hphase]
    exact Pool.returns_giveBack hobject acknowledged

theorem exists_of_count {kind : Task → Bool} {numbers : List Nat}
    (hcount : numbers.count number = ((transport.task? number).any kind).toNat)
    (hmem : number ∈ numbers) : ∃ task, transport.task? number = some task ∧ kind task = true := by
  have hpositive := List.count_pos_iff.mpr hmem
  rw [hcount] at hpositive
  cases htask : transport.task? number with
  | none =>
    rw [htask] at hpositive
    cases hpositive
  | some task =>
    rw [htask, Option.any_some] at hpositive
    refine ⟨task, rfl, Decidable.byContradiction fun hkind ↦ ?_⟩
    rw [Bool.eq_false_iff.mpr hkind] at hpositive
    cases hpositive

/-- Who has a slot claims it or pushes. -/
theorem Plugged.exists_task (h : transport.Plugged) (hmem : number ∈ transport.pool.holders) :
    ∃ task, transport.task? number = some task ∧
      (task.isClaiming = true ∨ task.isPushing = true) := by
  rcases List.mem_append.mp hmem with hclaims | hguards
  · have hclaimant : number ∈ transport.pool.claimants := by
      rw [Pool.claimants, Queue.poppers, List.append_assoc]
      exact List.mem_append_right _ hclaims
    obtain ⟨task, htask, hclaiming⟩ := exists_of_count (h.claimants number) hclaimant
    exact ⟨task, htask, .inl hclaiming⟩
  · obtain ⟨task, htask, hpushing⟩ := exists_of_count (h.guards number) hguards
    exact ⟨task, htask, .inr hpushing⟩

theorem isFinished_of_holds (hkind : task.isClaiming = true ∨ task.isPushing = true) :
    task.phase.isFinished = false := by
  cases hphase : task.phase with
  | finished result => simp [Task.isClaiming, Task.isPushing, hphase] at hkind
  | _ => rfl

/-- All slots are with tasks that can go on, and this one is none of them. -/
structure AllTaken (transport : Transport) (capacity number : Nat) : Prop where
  nodup : transport.pool.holders.Nodup
  length_eq : transport.pool.holders.length = capacity
  not_mem : number ∉ transport.pool.holders
  goes : ∀ holder ∈ transport.pool.holders, ∃ task, transport.task? holder = some task ∧
    (task.isClaiming = true ∨ task.isPushing = true) ∧
    ∃ step after, transport.step? step = some after ∧ transport.goesOn holder step = true

theorem Plugged.allTaken (h : transport.Plugged)
    (hwaiting : number ∈ transport.pool.idle.waiting) :
    AllTaken transport transport.pool.capacity number := by
  have hdistinct := List.nodup_iff_count.mpr h.accounted.distinct
  rw [Pool.numbers_eq, List.nodup_append] at hdistinct
  obtain ⟨-, hnodup, hapart⟩ := hdistinct
  refine ⟨hnodup, h.accounted.length_holders h.unsignalled_eq (List.ne_nil_of_mem hwaiting),
    fun hmem ↦ hapart number hwaiting number hmem rfl, fun holder hmem ↦ ?_⟩
  obtain ⟨task, htask, hkind⟩ := h.exists_task hmem
  refine ⟨task, htask, hkind, ?_⟩
  -- A holder does not wait itself, because no number is under way twice.
  rcases exists_step h htask (isFinished_of_holds hkind) with hgoes | hwaits
  · exact hgoes
  · exact (hapart holder hwaits holder hmem rfl).elim

/-! ### Turns of those that wait -/

/-- Whether a task gives its slot back in a step, because its push ends. -/
def isReturn (transport : Transport) (step : Step) : Bool :=
  match step with
  | .pushed number _ => (transport.task? number).any Task.isPushing
  | _ => false

/-- The slots that were given back in a run. -/
def returns (history : List (Transport × Step)) : Nat :=
  history.countP fun entry ↦ entry.1.isReturn entry.2

/-- Gets wait in the order in which they asked, and each slot that comes back serves the first. -/
theorem Turn.waiting (hturn : transport.Turn task step pool next) (h : transport.Plugged)
    (hknown : transport.task? task.number = some task) :
    (transport.isReturn step = true ∧ ∃ slot, Pool.Returns transport.pool task.number slot pool) ∨
      (transport.isReturn step = false ∧
        transport.pool.idle.waiting <+: pool.idle.waiting) := by
  have hback : ∀ payload keep, task.phase = .push payload .pushing →
      transport.isReturn (.pushed task.number keep) = true ∧ ∃ slot, Pool.Returns transport.pool
        task.number slot (transport.pool.giveBack task.number keep).signal := by
    intro payload keep hphase
    have hpushing : task.isPushing = true := by rw [Task.isPushing, hphase]
    obtain ⟨connection, hobject⟩ := h.exists_object hknown hpushing
    exact ⟨by rw [isReturn, hknown, Option.any_some, hpushing],
      _, Pool.returns_giveBack hobject keep⟩
  have htake : ∀ number, (transport.pool.take number).idle.waiting =
      transport.pool.idle.waiting := by
    intro number
    rcases Pool.take_eq transport.pool number with ⟨object, htake⟩ | htake <;> rw [htake] <;> rfl
  cases hturn with
  | aside haside =>
    refine .inr ⟨?_, List.prefix_rfl⟩
    cases haside <;> simp_all [isReturn, Task.isPushing]
  | claim payload hphase hopen =>
    refine .inr ⟨rfl, ?_⟩
    unfold Pool.ask
    split
    · exact List.prefix_rfl
    · unfold Queue.ask
      split
      · exact List.prefix_rfl
      · split
        · exact List.prefix_append _ _
        · exact List.prefix_rfl
  | hold payload hphase hready hobject => exact .inr ⟨rfl, htake _ ▸ List.prefix_rfl⟩
  | fill payload hphase hready hvacant => exact .inr ⟨rfl, htake _ ▸ List.prefix_rfl⟩
  | connect payload connection hphase hmaking => exact .inr ⟨rfl, List.prefix_rfl⟩
  | refuse payload hphase hmaking => exact .inr ⟨rfl, List.prefix_rfl⟩
  | send payload sent hphase hpurpose => exact .inl (hback payload true hphase)
  | giveBack payload hphase hpurpose => exact .inl (hback payload true hphase)
  | fail payload hphase => exact .inl (hback payload false hphase)

theorem waiting_of_step? (h : transport.Plugged) (possible : transport.step? step = some after) :
    (transport.isReturn step = true ∧
        ∃ guard slot, Pool.Returns transport.pool guard slot after.pool) ∨
      (transport.isReturn step = false ∧
        transport.pool.idle.waiting <+: after.pool.idle.waiting) := by
  rcases turned_of_step? possible with ⟨hnone, hpool, -⟩ | ⟨task, next, -, hknown, hturned⟩
  · refine .inr ⟨?_, hpool ▸ List.prefix_rfl⟩
    cases step <;> first | rfl | cases hnone
  · rcases hturned.turn.waiting h hknown with ⟨hreturn, hslot⟩ | hkept
    · exact .inl ⟨hreturn, _, hslot⟩
    · exact .inr hkept

/-- How a get has fared that waited at this place. -/
inductive Served (number place : Nat) (longer : List (Transport × Step)) (later : Transport) :
    Prop where
  | before (entry : Transport × Step) (hentry : entry ∈ longer)
      (hready : entry.1.pool.isReady number = true)
  | now (hready : later.pool.isReady number = true)
  | waits (hreturns : returns longer ≤ place)
      (hplace : later.pool.idle.waiting[place - returns longer]? = some number)

theorem Served.of_step? {place : Nat} (hserved : Served number place longer transport)
    (h : transport.Plugged) (possible : transport.step? step = some after) :
    Served number place (longer ++ [(transport, step)]) after := by
  have hlater : returns (longer ++ [(transport, step)]) =
      returns longer + (transport.isReturn step).toNat := by
    unfold returns
    rw [List.countP_append, List.countP_singleton]
    cases transport.isReturn step <;> rfl
  cases hserved with
  | before entry hentry hready => exact .before entry (List.mem_append_left _ hentry) hready
  | now hready => exact .before _ (List.mem_append_right _ List.mem_cons_self) hready
  | waits hreturns hplace =>
    rcases waiting_of_step? h possible with ⟨hreturn, guard, slot, hback⟩ | ⟨hreturn, rest, hrest⟩
    · rw [hreturn, Bool.toNat_true] at hlater
      by_cases hfirst : place = returns longer
      · -- The get is the first of those that wait, so the slot is granted to it.
        rw [hfirst, Nat.sub_self, ← List.head?_eq_getElem?] at hplace
        refine .now ?_
        rw [Pool.isReady, Queue.isReady, hback.granted_eq, hplace]
        simp
      · refine .waits (by omega) ?_
        have hnext : place - returns longer = place - (returns longer + 1) + 1 := by omega
        rw [hlater, hback.waiting_eq, List.getElem?_tail, ← hnext]
        exact hplace
    · rw [hreturn, Bool.toNat_false, Nat.add_zero] at hlater
      rw [← hlater] at hreturns hplace
      refine .waits hreturns ?_
      obtain ⟨hbelow, -⟩ := List.getElem?_eq_some_iff.mp hplace
      rw [← hrest, List.getElem?_append_left hbelow]
      exact hplace

theorem served_of_run {place : Nat} (h : first.Plugged) (run : Run step? first longer later)
    (hplace : first.pool.idle.waiting[place]? = some number) :
    later.Plugged ∧ Served number place longer later := by
  induction run with
  | start => exact ⟨h, .waits (Nat.zero_le _) hplace⟩
  | step run possible ih => exact ⟨ih.1.of_step? possible, ih.2.of_step? ih.1 possible⟩

/-! ### Whole runs -/

/-- What becomes of the sends of a transport, and of the slots that their pushes take. -/
structure SendsSettled (settings : BrokerSettings) (history : List (Transport × Step))
    (transport : Transport) : Prop where
  /-- A send that is over has added one copy of its payload or nothing, as its result says. -/
  ended : ∀ number task payload, transport.task? number = some task →
    task.purpose = .send payload → ∀ result, task.phase = .finished result →
      (result = .ok () ∨ result = .error .closed) ∧
      (result = .ok () ↔ copies number history = [payload]) ∧
      (result = .error .closed ↔ copies number history = [])
  /-- A send that is not over has added nothing, however often it has tried. -/
  underway : ∀ number task payload, transport.task? number = some task →
    task.purpose = .send payload → task.phase.isFinished = false → copies number history = []
  /-- A close is always possible. -/
  closes : ∃ after, transport.step? .close = some after ∧ after.closed = true
  /-- The transport is closed just if one was made. -/
  closed_iff : transport.closed = true ↔ ∃ entry ∈ history, entry.2 = .close
  /-- A send that begins after the close does not call on the broker. -/
  late : transport.closed = true → ∀ longer later, Run step? transport longer later →
    ∀ number task payload, transport.task? number = none → later.task? number = some task →
    task.purpose = .send payload → Late number longer task ∧ contacts number longer = []
  /-- It is over when it looks. -/
  looks : transport.closed = true → ∀ number task payload, transport.task? number = some task →
    task.purpose = .send payload → task.phase = .push payload .looking →
    transport.step? (.look number) =
      some (transport.put { task with phase := .finished (.error .closed) })
  /-- Only a task that claims a slot or pushes has one; a send that is over has none. -/
  slotless : ∀ number task, transport.task? number = some task → task.isClaiming = false →
    task.isPushing = false →
    number ∉ transport.pool.claimants ∧ number ∉ transport.pool.guards
  /-- The slot of a push goes back when the push ends, and keeps its connection just if the push
  succeeded. -/
  returned : ∀ number task payload, transport.task? number = some task →
    task.phase = .push payload .pushing →
    ∃ connection, transport.pool.object? number = some connection ∧
      ∀ acknowledged after, transport.step? (.pushed number acknowledged) = some after →
        Pool.Returns transport.pool number (if acknowledged then some connection else none)
          after.pool
  /-- A get waits only while all slots are with tasks that can go on. -/
  taken : ∀ number ∈ transport.pool.idle.waiting,
    AllTaken transport (max settings.poolSize 1) number
  /-- It is served when as many slots have come back as gets waited before it, and one more,
  whether after failures or not. -/
  served : ∀ number place, transport.pool.idle.waiting[place]? = some number →
    ∀ longer later, Run step? transport longer later → place < returns longer →
    (∃ entry ∈ longer, entry.1.pool.isReady number = true) ∨
      later.pool.isReady number = true

theorem Late.contacts_eq_nil (h : Late number longer task) : contacts number longer = [] := by
  refine List.filterMap_eq_nil_iff.mpr fun entry hentry ↦ ?_
  by_cases hown : entry.2.task? = some number
  · rw [h.steps entry hentry hown]
    simp [contact?]
  · exact contact?_of_ne hown

/-- A push is tried until it is acknowledged once, or until the close, in every run; and its
failures take no slot away. -/
theorem sendsSettled_of_run (run : Run step? (ofSettings settings list) history transport) :
    SendsSettled settings history transport where
  ended := by
    intro number task payload htask hpurpose result hresult
    rw [copies_eq_record run]
    rcases (sending run htask hpurpose).of_finished hresult with ⟨rfl, hone⟩ | ⟨rfl, hnone⟩
    · rw [hone]
      simp
    · rw [hnone]
      simp
  underway := by
    intro number task payload htask hpurpose hbusy
    rw [copies_eq_record run]
    cases sending run htask hpurpose with
    | underway phase hphase htaken => exact htaken
    | accepted hphase htaken => rw [hphase] at hbusy; cases hbusy
    | refused hphase htaken => rw [hphase] at hbusy; cases hbusy
  closes := ⟨transport.close, rfl, rfl⟩
  closed_iff := by
    have hclosed := run.holds_iff (fun transport ↦ transport.closed = true) (· = .close)
      fun _ _ _ possible ↦ closed_iff_of_step? possible
    rw [hclosed]
    simp [ofSettings]
  late := by
    intro hclosed longer later hlonger number task payload hfresh htask hpurpose
    have hlate := late_of_run hclosed hfresh hlonger htask hpurpose
    exact ⟨hlate, hlate.contacts_eq_nil⟩
  looks := fun hclosed _ _ _ htask hpurpose hphase ↦
    step?_look_of_closed hclosed htask hpurpose hphase
  slotless := by
    intro number task htask hclaiming hpushing
    have hclaims := (plugged run).claimants number
    have hguards := (plugged run).guards number
    rw [htask, Option.any_some, hclaiming] at hclaims
    rw [htask, Option.any_some, hpushing] at hguards
    exact ⟨List.count_eq_zero.mp hclaims, List.count_eq_zero.mp hguards⟩
  returned := by
    intro number task payload htask hphase
    obtain rfl := number_of_task? htask
    obtain ⟨connection, hobject⟩ :=
      (plugged run).exists_object htask (by rw [Task.isPushing, hphase])
    exact ⟨connection, hobject, fun _ _ possible ↦ returns_of_pushed htask hphase hobject possible⟩
  taken := by
    rw [← capacity_eq run]
    exact fun _ hwaiting ↦ (plugged run).allTaken hwaiting
  served := by
    intro number place hplace longer later hlonger hreturns
    cases (served_of_run (plugged run) hlonger hplace).2 with
    | before entry hentry hready => exact .inl ⟨entry, hentry, hready⟩
    | now hready => exact .inr hready
    | waits hfew => exact (Nat.not_lt.mpr hfew hreturns).elim

/-- Two sends share the one slot of a pool. The first fails twice and is turned away by the close;
the second takes the slot over between its failures and succeeds. A third comes after the close. -/
def retryingSteps (first second : Bytes) : List Step :=
  [.send 1 first, .look 1, .dialled 1 .refused, .dialled 1 (.connected 0), .send 2 second, .look 2,
    .pushed 1 false, .take 2, .dialled 2 (.connected 1), .rested 1, .look 1, .pushed 2 true,
    .take 1, .pushed 1 false, .close, .rested 1, .look 1, .send 3 first, .look 3]

theorem sendsSettled_of_retryingSteps : ∃ history transport,
    Run step? (ofSettings { poolSize := 1 } []) history transport ∧
      transport.closed = true ∧ transport.list = [[2]] ∧
      ([1, 2, 3].map fun number ↦ copies number history) = [[], [[2]], []] ∧
      ([1, 3].map fun number ↦ contacts number history) =
        [[.refusal, .connection, .push, .push], []] ∧
      SendsSettled { poolSize := 1 } history transport := by
  have hfollow : ((Run.follow? step? (ofSettings { poolSize := 1 } [])
      (retryingSteps [1] [2])).bind fun taken ↦ if taken.2.closed then
        some (taken.2.list, [1, 2, 3].map fun number ↦ copies number taken.1,
          [1, 3].map fun number ↦ contacts number taken.1) else none) =
      some ([[2]], [[], [[2]], []], [[.refusal, .connection, .push, .push], []]) := by
    decide +kernel
  obtain ⟨⟨history, transport⟩, htaken, hrest⟩ := Option.bind_eq_some_iff.mp hfollow
  obtain ⟨hclosed, hseen⟩ := Option.ite_none_right_eq_some.mp hrest
  simp only [Option.some.injEq, Prod.mk.injEq] at hseen
  obtain ⟨hlist, hcopies, hcontacts⟩ := hseen
  have run := Run.of_follow? htaken
  exact ⟨history, transport, run, hclosed, hlist, hcopies, hcontacts, sendsSettled_of_run run⟩

end Transport

end GelfCourier.Broker
