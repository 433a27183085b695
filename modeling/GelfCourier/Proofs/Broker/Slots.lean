import GelfCourier.Proofs.Broker.Tasks
import GelfCourier.Proofs.Concurrent.PoolAccounts

/-!
The pool slots of a transport's tasks. One step of a task is a turn (`Transport.Turn`): either it
has to do with the task's slot, or it leaves the pool alone (`Task.Aside`). After every run the gets
and guards of the pool are the tasks that claim a slot and those that push, each of them once.
-/

set_option autoImplicit false

namespace GelfCourier

/-! ### Gets and guards -/

namespace Pool

variable {α : Type} {pool : Pool α} {get : Nat}

/-- Gets under way: those that wait for a slot, and those that make its object. -/
def claimants (pool : Pool α) : List Nat :=
  pool.idle.poppers ++ pool.making

def guards (pool : Pool α) : List Nat :=
  pool.held.map Prod.fst

/-- Gets and guards that have a slot: it was granted, or its object is made, or is held. -/
def holders (pool : Pool α) : List Nat :=
  pool.idle.granted ++ pool.making ++ pool.guards

theorem numbers_eq (pool : Pool α) : pool.numbers = pool.idle.waiting ++ pool.holders := by
  simp [numbers, Queue.poppers, guards, holders]

/-- Assumes: no permit that is still to come. Nobody waits for a permit that is free, so while a get
waits all slots are with others. -/
theorem Accounted.length_holders (h : pool.Accounted) (hsettled : pool.idle.unsignalled = 0)
    (hwaiting : pool.idle.waiting ≠ []) : pool.holders.length = pool.capacity := by
  have hcreated := h.created_eq
  have hfull := h.full hwaiting
  have hitems := h.idle.items_eq
  have hpermits : pool.idle.permits = 0 :=
    Decidable.byContradiction fun hfree ↦ hwaiting (h.idle.waiting_eq hfree)
  simp only [holders, guards, List.length_append, List.length_map]
  omega

theorem not_isKnown (h : pool.Accounted) (hclaimants : pool.claimants.count get = 0)
    (hguards : pool.guards.count get = 0) : ¬ pool.isKnown get = true := by
  rw [List.count_eq_zero] at hclaimants hguards
  have hwaiting : get ∉ pool.idle.waiting := fun hmem ↦
    hclaimants (List.mem_append_left _ (List.mem_append_left _ hmem))
  have hgranted : get ∉ pool.idle.granted := fun hmem ↦
    hclaimants (List.mem_append_left _ (List.mem_append_right _ hmem))
  have hmaking : get ∉ pool.making := fun hmem ↦ hclaimants (List.mem_append_right _ hmem)
  have hobject : ¬ (pool.object? get).isSome = true := by
    rw [isSome_object?_iff]
    exact hguards
  simp only [isKnown, Queue.isKnown, h.idle.isReady_eq, isMaking, Bool.or_eq_true,
    List.contains_iff_mem, not_or]
  exact ⟨⟨⟨hwaiting, hgranted⟩, hmaking⟩, hobject⟩

theorem Accounted.granted_of_isReady (h : pool.Accounted) (hready : pool.isReady get = true) :
    pool.idle.granted.contains get = true := by
  rw [← h.idle.isReady_eq]
  exact hready

theorem count_claimants_ask (h : pool.Accounted) (number : Nat) :
    (pool.ask get).claimants.count number =
      pool.claimants.count number + if get = number then 1 else 0 := by
  unfold ask claimants
  by_cases hroom : pool.created < pool.capacity
  · rw [if_pos hroom]
    simp only [List.count_append, List.count_singleton, beq_iff_eq]
    omega
  · rw [if_neg hroom]
    simp only [List.count_append, Queue.count_poppers_ask h.idle.isOpen]
    omega

theorem unsignalled_ask (pool : Pool α) (get : Nat) :
    (pool.ask get).idle.unsignalled = pool.idle.unsignalled := by
  unfold ask Queue.ask
  split
  · rfl
  · dsimp only
    split
    · rfl
    · split <;> rfl

theorem unsignalled_take (pool : Pool α) (get : Nat) :
    (pool.take get).idle.unsignalled = pool.idle.unsignalled := by
  rcases take_eq pool get with ⟨object, htake⟩ | htake
  · rw [htake]
    rfl
  · rw [htake]
    rfl

theorem guards_ask (pool : Pool α) (get : Nat) : (pool.ask get).guards = pool.guards := by
  unfold ask
  split <;> rfl

/-- Assumes: a get that has no guard yet. Where the slot is vacant, the get is still under way. -/
theorem count_take (hgranted : pool.idle.granted.contains get = true)
    (hguards : pool.guards.count get = 0) (number : Nat) :
    (pool.take get).claimants.count number +
        (if get = number then ((pool.take get).object? get).isSome.toNat else 0) =
      pool.claimants.count number ∧
    (pool.take get).guards.count number = pool.guards.count number +
      if get = number then ((pool.take get).object? get).isSome.toNat else 0 := by
  have hpoppers := Queue.count_poppers_take hgranted number
  rcases take_eq pool get with ⟨object, htake⟩ | htake
  · have hsome : ((pool.take get).object? get).isSome = true := by
      rw [isSome_object?_iff, htake]
      simp
    rw [hsome, htake, Bool.toNat_true]
    refine ⟨?_, ?_⟩
    · simp only [claimants, List.count_append]
      omega
    · simp [guards, List.count_append, List.count_singleton]
  · have hnone : ((pool.take get).object? get).isSome = false := by
      refine Bool.eq_false_iff.mpr ?_
      rw [Ne, isSome_object?_iff, htake]
      exact List.count_eq_zero.mp hguards
    rw [hnone, htake]
    simp only [claimants, guards, List.count_append, List.count_singleton, beq_iff_eq,
      Bool.toNat_false, ite_self]
    omega

theorem count_claimants_finish (object : α) (hmaking : pool.isMaking get = true) (number : Nat) :
    (pool.finish get object).claimants.count number + (if get = number then 1 else 0) =
      pool.claimants.count number := by
  have hmem : get ∈ pool.making := by simpa [isMaking] using hmaking
  have hmoved := Numbered.count_erase_add hmem number
  simp only [finish, claimants, List.count_append]
  omega

theorem count_guards_finish (object : α) (number : Nat) :
    (pool.finish get object).guards.count number =
      pool.guards.count number + if get = number then 1 else 0 := by
  simp [finish, guards, List.count_append, List.count_singleton]

theorem count_claimants_signal (pool : Pool α) (number : Nat) :
    pool.signal.claimants.count number = pool.claimants.count number := by
  simp only [signal, Queue.signal, claimants, List.count_append, Queue.count_poppers_addPermit]
  rfl

theorem claimants_giveBack (pool : Pool α) (get : Nat) (keep : Bool) :
    (pool.giveBack get keep).claimants = pool.claimants := by
  unfold giveBack
  cases pool.object? get <;> rfl

theorem count_guards_giveBack (pool : Pool α) (get : Nat) (keep : Bool) (number : Nat) :
    (pool.giveBack get keep).guards.count number +
      (if get = number then pool.guards.count get else 0) = pool.guards.count number := by
  unfold giveBack
  cases hobject : pool.object? get with
  | none =>
    have hnone : get ∉ pool.guards := fun hmem ↦ by
      have hsome := (isSome_object?_iff pool get).mpr hmem
      rw [hobject] at hsome
      cases hsome
    rw [List.count_eq_zero.mpr hnone, ite_self]
    rfl
  | some object => exact Numbered.count_filter_ne_add Prod.fst pool.held get number

/-- Assumes: a get that was granted a slot, and is under way once. -/
theorem isMaking_eq_false (honce : pool.claimants.count get = 1)
    (hgranted : pool.idle.granted.contains get = true) : pool.isMaking get = false := by
  have hpopper : 0 < pool.idle.poppers.count get :=
    List.count_pos_iff.mpr (List.mem_append_right _ (List.contains_iff_mem.mp hgranted))
  rw [claimants, List.count_append] at honce
  refine Bool.eq_false_iff.mpr fun hmaking ↦ ?_
  have hpositive := List.count_pos_iff.mpr (List.contains_iff_mem.mp hmaking)
  omega

/-- A vacant slot is filled by the get that takes it. -/
theorem isMaking_take (hvacant : ((pool.take get).object? get).isSome = false) :
    (pool.take get).isMaking get = true := by
  rcases take_eq pool get with ⟨object, htake⟩ | htake
  · have hsome : ((pool.take get).object? get).isSome = true := by
      rw [isSome_object?_iff, htake]
      simp
    rw [hvacant] at hsome
    cases hsome
  · rw [htake]
    simp [isMaking]

variable {number : Nat}

theorem isMaking_ask_of_ne (hne : number ≠ get) :
    (pool.ask get).isMaking number = pool.isMaking number := by
  unfold ask
  split
  · simp [isMaking, hne]
  · rfl

theorem isMaking_take_of_ne (hne : number ≠ get) :
    (pool.take get).isMaking number = pool.isMaking number := by
  rcases take_eq pool get with ⟨object, htake⟩ | htake
  · rw [htake]
    rfl
  · rw [htake]
    simp [isMaking, hne]

theorem isMaking_finish_of_ne (hne : number ≠ get) (object : α) :
    (pool.finish get object).isMaking number = pool.isMaking number := by
  simp [isMaking, finish, List.mem_erase_of_ne hne]

theorem isMaking_giveBack (pool : Pool α) (get : Nat) (keep : Bool) (number : Nat) :
    (pool.giveBack get keep).signal.isMaking number = pool.isMaking number := by
  unfold giveBack
  cases pool.object? get <;> rfl

end Pool

namespace Broker

open Transport (Step)

/-! ### Turns -/

/-- A step of a task that leaves the pool alone. -/
inductive Task.Aside (closed : Bool) (task : Task) : Step → Task → Prop where
  | giveUp (payload sent : Bytes) (hphase : task.phase = .push payload .looking)
      (hclosed : closed = true) (hpurpose : task.purpose = .send sent) :
      Aside closed task (.look task.number) { task with phase := .finished (.error .closed) }
  | turnBack (payload : Bytes) (hphase : task.phase = .push payload .looking)
      (hclosed : closed = true) (hpurpose : task.purpose = .consume) :
      Aside closed task (.look task.number) { task with phase := .redialing payload }
  | stop (hphase : task.phase = .looking) (hclosed : closed = true) :
      Aside closed task (.look task.number) { task with phase := .finished (.ok ()) }
  | pop (hphase : task.phase = .looking) (hopen : closed = false) :
      Aside closed task (.look task.number) { task with phase := .popping }
  | connect (connection : Nat) (hphase : task.phase = .popping) (hnone : task.connection = none) :
      Aside closed task (.dialled task.number (.connected connection))
        { task with phase := .popping, connection := some connection }
  | miss (hphase : task.phase = .popping) (hnone : task.connection = none) :
      Aside closed task (.dialled task.number .refused) { task with phase := .resting }
  | redial (payload : Bytes) (connection : Nat) (hphase : task.phase = .redialing payload) :
      Aside closed task (.dialled task.number (.connected connection))
        { task with phase := .returning payload }
  | loseDialling (payload : Bytes) (hphase : task.phase = .redialing payload) :
      Aside closed task (.dialled task.number .refused)
        { task.settle payload .lost with phase := .finished (.error .broker) }
  | giveBack (payload : Bytes) (hphase : task.phase = .returning payload) :
      Aside closed task (.pushed task.number true)
        { task.settle payload .returned with phase := .resting }
  | losePushing (payload : Bytes) (hphase : task.phase = .returning payload) :
      Aside closed task (.pushed task.number false)
        { task.settle payload .lost with phase := .finished (.error .broker) }
  | receive (payload : Bytes) (hphase : task.phase = .popping)
      (hsome : task.connection ≠ none) (hreadable : ¬ IsUnreadable payload) :
      Aside closed task (.popEnded task.number .element)
        { task with popped := task.popped ++ [payload], phase := .handling payload }
  | drop (payload : Bytes) (hphase : task.phase = .popping)
      (hsome : task.connection ≠ none) (hunreadable : IsUnreadable payload) :
      Aside closed task (.popEnded task.number .element)
        { { task with popped := task.popped ++ [payload] }.settle payload .dropped with
          phase := .looking }
  | pass (hphase : task.phase = .popping) (hsome : task.connection ≠ none) :
      Aside closed task (.popEnded task.number .nothing) { task with phase := .looking }
  | disconnect (hphase : task.phase = .popping) (hsome : task.connection ≠ none) :
      Aside closed task (.popEnded task.number .failed)
        { task with phase := .resting, connection := none }
  | handle (payload : Bytes) (hphase : task.phase = .handling payload) :
      Aside closed task (.handled task.number true)
        { task.settle payload .handled with phase := .looking }
  | return (payload : Bytes) (hphase : task.phase = .handling payload) :
      Aside closed task (.handled task.number false)
        { task with phase := .push payload .looking }
  | retry (payload : Bytes) (hphase : task.phase = .push payload .pausing) :
      Aside closed task (.rested task.number) { task with phase := .push payload .looking }
  | rest (hphase : task.phase = .resting) :
      Aside closed task (.rested task.number) { task with phase := .looking }

namespace Transport

/-- One step of a task, with the pool after it. -/
inductive Turn (transport : Transport) (task : Task) : Step → Pool Nat → Task → Prop where
  | aside {step : Step} {next : Task} (haside : task.Aside transport.closed step next) :
      Turn transport task step transport.pool next
  | claim (payload : Bytes) (hphase : task.phase = .push payload .looking)
      (hopen : transport.closed = false) :
      Turn transport task (.look task.number) (transport.pool.ask task.number)
        { task with phase := .push payload .claiming }
  | hold (payload : Bytes) (hphase : task.phase = .push payload .claiming)
      (hready : transport.pool.isReady task.number = true)
      (hobject : ((transport.pool.take task.number).object? task.number).isSome = true) :
      Turn transport task (.take task.number) (transport.pool.take task.number)
        { task with phase := .push payload .pushing }
  | fill (payload : Bytes) (hphase : task.phase = .push payload .claiming)
      (hready : transport.pool.isReady task.number = true)
      (hvacant : ((transport.pool.take task.number).object? task.number).isSome = false) :
      Turn transport task (.take task.number) (transport.pool.take task.number) task
  | connect (payload : Bytes) (connection : Nat) (hphase : task.phase = .push payload .claiming)
      (hmaking : transport.pool.isMaking task.number = true) :
      Turn transport task (.dialled task.number (.connected connection))
        (transport.pool.finish task.number connection)
        { task with phase := .push payload .pushing }
  | refuse (payload : Bytes) (hphase : task.phase = .push payload .claiming)
      (hmaking : transport.pool.isMaking task.number = true) :
      Turn transport task (.dialled task.number .refused) transport.pool task
  | send (payload sent : Bytes) (hphase : task.phase = .push payload .pushing)
      (hpurpose : task.purpose = .send sent) :
      Turn transport task (.pushed task.number true)
        (transport.pool.giveBack task.number true).signal
        { task with phase := .finished (.ok ()) }
  | giveBack (payload : Bytes) (hphase : task.phase = .push payload .pushing)
      (hpurpose : task.purpose = .consume) :
      Turn transport task (.pushed task.number true)
        (transport.pool.giveBack task.number true).signal
        { task.settle payload .returned with phase := .resting }
  | fail (payload : Bytes) (hphase : task.phase = .push payload .pushing) :
      Turn transport task (.pushed task.number false)
        (transport.pool.giveBack task.number false).signal
        { task with phase := .push payload .pausing }

variable {transport after : Transport} {task next : Task} {step : Step} {number : Nat}

theorem Turn.isMaking_of_ne {pool : Pool Nat} (hturn : transport.Turn task step pool next)
    (hne : number ≠ task.number) : pool.isMaking number = transport.pool.isMaking number := by
  cases hturn with
  | aside haside => rfl
  | claim payload hphase hopen => exact Pool.isMaking_ask_of_ne hne
  | hold payload hphase hready hobject => exact Pool.isMaking_take_of_ne hne
  | fill payload hphase hready hvacant => exact Pool.isMaking_take_of_ne hne
  | connect payload connection hphase hmaking => exact Pool.isMaking_finish_of_ne hne connection
  | refuse payload hphase hmaking => rfl
  | send payload sent hphase hpurpose => exact Pool.isMaking_giveBack _ _ _ _
  | giveBack payload hphase hpurpose => exact Pool.isMaking_giveBack _ _ _ _
  | fail payload hphase => exact Pool.isMaking_giveBack _ _ _ _

/-- A task has taken its turn, and every other task stays as it is. -/
structure Turned (transport : Transport) (task : Task) (step : Step) (after : Transport)
    (next : Task) : Prop where
  turn : transport.Turn task step after.pool next
  lookup : ∀ other,
    after.task? other = if other = task.number then some next else transport.task? other

theorem turned_put {between : Transport} (hknown : transport.task? task.number = some task)
    (htasks : between.tasks = transport.tasks) (hnumber : next.number = task.number)
    (hturn : transport.Turn task step between.pool next) :
    transport.Turned task step (between.put next) next := by
  refine ⟨hturn, fun other ↦ ?_⟩
  have hsame : ∀ wanted, between.task? wanted = transport.task? wanted := by
    intro wanted
    unfold task?
    rw [htasks]
  have hfound : between.task? next.number = some task := by rw [hnumber, hsame, hknown]
  rw [task?_put hfound, hnumber, hsame]

theorem turned_refl {between : Transport} (hknown : transport.task? task.number = some task)
    (htasks : between.tasks = transport.tasks)
    (hturn : transport.Turn task step between.pool task) :
    transport.Turned task step between task := by
  refine ⟨hturn, fun other ↦ ?_⟩
  have hsame : between.task? other = transport.task? other := by
    unfold task?
    rw [htasks]
  rw [hsame]
  by_cases hother : other = task.number
  · rw [if_pos hother, hother, hknown]
  · rw [if_neg hother]

section Operations

variable {payload : Bytes}

theorem turned_look (payload : Bytes) (hknown : transport.task? task.number = some task)
    (hphase : task.phase = .looking ∨ task.phase = .push payload .looking) :
    ∃ next, transport.Turned task (.look task.number) (transport.look task) next := by
  unfold look
  rcases hphase with hphase | hphase
  · rw [hphase]
    by_cases hclosed : transport.closed = true
    · rw [if_pos hclosed]
      exact ⟨_, turned_put hknown rfl rfl (.aside (.stop hphase hclosed))⟩
    · rw [if_neg hclosed]
      exact ⟨_, turned_put hknown rfl rfl (.aside (.pop hphase (Bool.eq_false_iff.mpr hclosed)))⟩
  · rw [hphase]
    by_cases hclosed : transport.closed = true
    · simp only [if_pos hclosed]
      split
      · next sent hpurpose =>
        exact ⟨_, turned_put hknown rfl rfl (.aside (.giveUp payload sent hphase hclosed hpurpose))⟩
      · next hpurpose =>
        exact ⟨_, turned_put hknown rfl rfl (.aside (.turnBack payload hphase hclosed hpurpose))⟩
    · simp only [if_neg hclosed]
      exact ⟨_, turned_put hknown rfl rfl (.claim payload hphase (Bool.eq_false_iff.mpr hclosed))⟩

theorem turned_take (hknown : transport.task? task.number = some task)
    (hphase : task.phase = .push payload .claiming)
    (hready : transport.pool.isReady task.number = true) :
    ∃ next, transport.Turned task (.take task.number) (transport.take task payload) next := by
  unfold take
  by_cases hobject : ((transport.pool.take task.number).object? task.number).isSome = true
  · simp only [if_pos hobject]
    exact ⟨_, turned_put hknown rfl rfl (.hold payload hphase hready hobject)⟩
  · simp only [if_neg hobject]
    exact ⟨_, turned_refl hknown rfl
      (.fill payload hphase hready (Bool.eq_false_iff.mpr hobject))⟩

theorem turned_dialled (hknown : transport.task? task.number = some task) (ending : DialEnd)
    (hdialing : transport.isDialing task = true) :
    ∃ next, transport.Turned task (.dialled task.number ending) (transport.dialled task ending)
      next := by
  unfold dialled
  unfold isDialing at hdialing
  cases hphase : task.phase with
  | push payload phase =>
    rw [hphase] at hdialing
    cases phase <;> first | cases hdialing | skip
    cases ending with
    | connected connection =>
      exact ⟨_, turned_put hknown rfl rfl (.connect payload connection hphase hdialing)⟩
    | refused => exact ⟨_, turned_refl hknown rfl (.refuse payload hphase hdialing)⟩
  | popping =>
    rw [hphase] at hdialing
    have hnone : task.connection = none := Option.isNone_iff_eq_none.mp hdialing
    cases ending with
    | connected connection =>
      exact ⟨_, turned_put hknown rfl rfl (.aside (.connect connection hphase hnone))⟩
    | refused => exact ⟨_, turned_put hknown rfl rfl (.aside (.miss hphase hnone))⟩
  | redialing payload =>
    cases ending with
    | connected connection =>
      exact ⟨_, turned_put hknown rfl rfl (.aside (.redial payload connection hphase))⟩
    | refused => exact ⟨_, turned_put hknown rfl rfl (.aside (.loseDialling payload hphase))⟩
  | looking => rw [hphase] at hdialing; cases hdialing
  | handling _ => rw [hphase] at hdialing; cases hdialing
  | returning _ => rw [hphase] at hdialing; cases hdialing
  | resting => rw [hphase] at hdialing; cases hdialing
  | finished _ => rw [hphase] at hdialing; cases hdialing

theorem turned_pushed (hknown : transport.task? task.number = some task) (acknowledged : Bool)
    (hphase : task.phase = .push payload .pushing ∨ task.phase = .returning payload) :
    ∃ next, transport.Turned task (.pushed task.number acknowledged)
      (transport.pushed task acknowledged) next := by
  unfold pushed
  rcases hphase with hphase | hphase
  · rw [hphase]
    cases acknowledged with
    | true =>
      simp only
      split
      · next sent hpurpose =>
        exact ⟨_, turned_put hknown rfl rfl (.send payload sent hphase hpurpose)⟩
      · next hpurpose => exact ⟨_, turned_put hknown rfl rfl (.giveBack payload hphase hpurpose)⟩
    | false => exact ⟨_, turned_put hknown rfl rfl (.fail payload hphase)⟩
  · rw [hphase]
    cases acknowledged with
    | true => exact ⟨_, turned_put hknown rfl rfl (.aside (.giveBack payload hphase))⟩
    | false => exact ⟨_, turned_put hknown rfl rfl (.aside (.losePushing payload hphase))⟩

theorem turned_receive {between : Transport} (hknown : transport.task? task.number = some task)
    (hpool : between.pool = transport.pool) (htasks : between.tasks = transport.tasks)
    (hphase : task.phase = .popping) (hsome : task.connection ≠ none) :
    ∃ next, transport.Turned task (.popEnded task.number .element) (between.receive task payload)
      next := by
  have haside : ∀ next, task.Aside transport.closed (.popEnded task.number .element) next →
      transport.Turn task (.popEnded task.number .element) between.pool next := by
    intro next haside
    rw [hpool]
    exact .aside haside
  unfold receive
  by_cases hempty : payload.isEmpty = true
  · simp only [if_pos hempty]
    exact ⟨_, turned_put hknown htasks rfl
      (haside _ (.drop payload hphase hsome (.inl (List.isEmpty_iff.mp hempty))))⟩
  · simp only [if_neg hempty]
    cases hread : Payload.read payload with
    | error fault =>
      exact ⟨_, turned_put hknown htasks rfl
        (haside _ (.drop payload hphase hsome (.inr ⟨fault, hread⟩)))⟩
    | ok message =>
      refine ⟨_, turned_put hknown htasks rfl (haside _ (.receive payload hphase hsome ?_))⟩
      rintro (hnil | ⟨fault, hfault⟩)
      · exact hempty (List.isEmpty_iff.mpr hnil)
      · rw [hread] at hfault
        cases hfault

theorem turned_popEnded (hknown : transport.task? task.number = some task) (ending : PopEnd)
    (hphase : task.phase = .popping)
    (hpossible : ¬ (task.connection.isNone ||
      (ending == .element && transport.list.isEmpty)) = true) :
    ∃ next, transport.Turned task (.popEnded task.number ending) (transport.popEnded task ending)
      next := by
  rw [Bool.or_eq_true, not_or] at hpossible
  obtain ⟨hsome, hlist⟩ := hpossible
  have hsome : task.connection ≠ none := fun hnone ↦ hsome (Option.isNone_iff_eq_none.mpr hnone)
  unfold popEnded
  cases ending with
  | element =>
    cases hfront : transport.list with
    | nil =>
      rw [hfront] at hlist
      exact absurd rfl hlist
    | cons payload list => exact turned_receive hknown rfl rfl hphase hsome
  | nothing => exact ⟨_, turned_put hknown rfl rfl (.aside (.pass hphase hsome))⟩
  | failed => exact ⟨_, turned_put hknown rfl rfl (.aside (.disconnect hphase hsome))⟩

theorem turned_handled (hknown : transport.task? task.number = some task) (succeeded : Bool)
    (hphase : task.phase = .handling payload) :
    ∃ next, transport.Turned task (.handled task.number succeeded)
      (transport.handled task payload succeeded) next := by
  cases succeeded with
  | true => exact ⟨_, turned_put hknown rfl rfl (.aside (.handle payload hphase))⟩
  | false => exact ⟨_, turned_put hknown rfl rfl (.aside (.return payload hphase))⟩

theorem turned_rested (payload : Bytes) (hknown : transport.task? task.number = some task)
    (hphase : task.phase = .push payload .pausing ∨ task.phase = .resting) :
    ∃ next, transport.Turned task (.rested task.number) (transport.rested task) next := by
  unfold rested
  rcases hphase with hphase | hphase
  · rw [hphase]
    exact ⟨_, turned_put hknown rfl rfl (.aside (.retry payload hphase))⟩
  · rw [hphase]
    exact ⟨_, turned_put hknown rfl rfl (.aside (.rest hphase))⟩

/-- A step that is about a task and possible is a turn of this task. -/
theorem turned_of_stepOf? (hknown : transport.task? task.number = some task)
    (hstep : step.task? = some task.number) (h : transport.stepOf? task step = some after) :
    ∃ next, transport.Turned task step after next := by
  cases step with
  | send _ _ => cases hstep
  | consume _ => cases hstep
  | close => cases hstep
  | deposit _ => cases hstep
  | withdraw => cases hstep
  | look number =>
    obtain rfl : number = task.number := Option.some.inj hstep
    simp only [stepOf?] at h
    split at h
    · next hphase => cases h; exact turned_look _ hknown (.inr hphase)
    · next hphase => cases h; exact turned_look [] hknown (.inl hphase)
    · cases h
  | take number =>
    obtain rfl : number = task.number := Option.some.inj hstep
    simp only [stepOf?] at h
    split at h
    · next hphase =>
      split at h
      · next hready => cases h; exact turned_take hknown hphase hready
      · cases h
    · cases h
  | dialled number ending =>
    obtain rfl : number = task.number := Option.some.inj hstep
    simp only [stepOf?] at h
    split at h
    · next hdialing => cases h; exact turned_dialled hknown ending hdialing
    · cases h
  | pushed number acknowledged =>
    obtain rfl : number = task.number := Option.some.inj hstep
    simp only [stepOf?] at h
    split at h
    · next hphase => cases h; exact turned_pushed hknown acknowledged (.inl hphase)
    · next hphase => cases h; exact turned_pushed hknown acknowledged (.inr hphase)
    · cases h
  | popEnded number ending =>
    obtain rfl : number = task.number := Option.some.inj hstep
    simp only [stepOf?] at h
    split at h
    · next hphase =>
      split at h
      · cases h
      · next hpossible => cases h; exact turned_popEnded hknown ending hphase hpossible
    · cases h
  | handled number succeeded =>
    obtain rfl : number = task.number := Option.some.inj hstep
    simp only [stepOf?] at h
    split at h
    · next hphase => cases h; exact turned_handled hknown succeeded hphase
    · cases h
  | rested number =>
    obtain rfl : number = task.number := Option.some.inj hstep
    simp only [stepOf?] at h
    split at h
    · next hphase => cases h; exact turned_rested _ hknown (.inl hphase)
    · next hphase => cases h; exact turned_rested [] hknown (.inr hphase)
    · cases h

end Operations

/-- A possible step is about no task that has begun, or it is a turn of one. -/
theorem turned_of_step? (h : transport.step? step = some after) :
    (step.task? = none ∧ after.pool = transport.pool ∧
        ((∃ begun purpose, transport.task? begun = none ∧ after = transport.begin begun purpose) ∨
          after.tasks = transport.tasks)) ∨
      ∃ task next : Task, step.task? = some task.number ∧
        transport.task? task.number = some task ∧ transport.Turned task step after next := by
  rcases step?_eq h with ⟨hnone, -, -, htasks⟩ | ⟨task, hstep, hknown, hstepOf⟩
  · refine .inl ⟨hnone, ?_, htasks⟩
    cases step with
    | send number payload => simp only [step?] at h; split at h <;> cases h; rfl
    | consume number => simp only [step?] at h; split at h <;> cases h; rfl
    | close => cases h; rfl
    | deposit payload => cases h; rfl
    | withdraw => cases h; rfl
    | look number => cases hnone
    | take number => cases hnone
    | dialled number ending => cases hnone
    | pushed number acknowledged => cases hnone
    | popEnded number ending => cases hnone
    | handled number succeeded => cases hnone
    | rested number => cases hnone
  · obtain ⟨next, hturned⟩ := turned_of_stepOf? hknown hstep hstepOf
    exact .inr ⟨task, next, hstep, hknown, hturned⟩

/-- A task after a step has just begun, or it did not take the step, or the step was its turn. -/
theorem task_of_step? (h : transport.step? step = some after)
    (hnext : after.task? number = some next) :
    (transport.task? number = none ∧ ∃ purpose, next = Task.ofPurpose number purpose) ∨
      (transport.task? number = some next ∧ step.task? ≠ some number) ∨
      ∃ task, transport.task? number = some task ∧ task.number = number ∧
        transport.Turn task step after.pool next := by
  rcases turned_of_step? h with
    ⟨hnone, -, hbegun | htasks⟩ | ⟨task, taken, hstep, hknown, hturned⟩
  · obtain ⟨begun, purpose, hfresh, rfl⟩ := hbegun
    rw [task?_begin purpose hfresh] at hnext
    by_cases hbegun : number = begun
    · subst hbegun
      rw [if_pos rfl] at hnext
      cases hnext
      exact .inl ⟨hfresh, purpose, rfl⟩
    · rw [if_neg hbegun] at hnext
      exact .inr (.inl ⟨hnext, by rw [hnone]; exact (Option.some_ne_none _).symm⟩)
  · have hsame : transport.task? number = some next := by
      unfold task? at hnext ⊢
      rw [← htasks, hnext]
    exact .inr (.inl ⟨hsame, by rw [hnone]; exact (Option.some_ne_none _).symm⟩)
  · rw [hturned.lookup] at hnext
    by_cases hnumber : number = task.number
    · subst hnumber
      rw [if_pos rfl] at hnext
      cases hnext
      exact .inr (.inr ⟨task, hknown, rfl, hturned.turn⟩)
    · rw [if_neg hnumber] at hnext
      refine .inr (.inl ⟨hnext, ?_⟩)
      rw [hstep]
      exact fun hsame ↦ hnumber (Option.some.inj hsame).symm

theorem Turn.isFinished_eq {pool : Pool Nat} (hturn : transport.Turn task step pool next) :
    task.phase.isFinished = false := by
  cases hturn with
  | aside haside => cases haside <;> simp_all [Phase.isFinished]
  | _ => simp_all [Phase.isFinished]

theorem Turn.purpose_eq {pool : Pool Nat} (hturn : transport.Turn task step pool next) :
    next.purpose = task.purpose := by
  cases hturn with
  | aside haside => cases haside <;> rfl
  | _ => rfl

end Transport

/-! ### Slots and phases -/

/-- Whether a task has claimed a slot and has no connection yet. -/
def Task.isClaiming (task : Task) : Bool :=
  match task.phase with
  | .push _ .claiming => true
  | _ => false

def Task.isPushing (task : Task) : Bool :=
  match task.phase with
  | .push _ .pushing => true
  | _ => false

theorem Task.Aside.slots_eq {closed : Bool} {task next : Task} {step : Step}
    (haside : task.Aside closed step next) :
    (task.isClaiming = false ∧ task.isPushing = false) ∧
      next.isClaiming = false ∧ next.isPushing = false := by
  unfold Task.isClaiming Task.isPushing
  cases haside <;> simp [*]

namespace Transport

/-- The pool is in order, and its gets and guards are the tasks that claim a slot and those that
push. -/
structure Plugged (transport : Transport) : Prop where
  accounted : transport.pool.Accounted
  unsignalled_eq : transport.pool.idle.unsignalled = 0
  claimants : ∀ number, transport.pool.claimants.count number =
    ((transport.task? number).any Task.isClaiming).toNat
  guards : ∀ number, transport.pool.guards.count number =
    ((transport.task? number).any Task.isPushing).toNat

namespace Plugged

variable {transport after : Transport} {task next : Task} {step : Step}

theorem ofSettings (settings : BrokerSettings) (list : List Bytes) :
    (Transport.ofSettings settings list).Plugged where
  accounted := .ofCapacity _
  unsignalled_eq := rfl
  claimants := fun _ ↦ rfl
  guards := fun _ ↦ rfl

/-- Assumes: a list of numbers in which only this task's number comes or goes. -/
theorem count_of_lookup {before between : List Nat} (kind : Task → Bool)
    (hknown : transport.task? task.number = some task)
    (hlookup : ∀ other,
      after.task? other = if other = task.number then some next else transport.task? other)
    (hbefore : ∀ other, before.count other = ((transport.task? other).any kind).toNat)
    (hmoved : ∀ other, between.count other +
        (if task.number = other then (kind task).toNat else 0) =
      before.count other + if task.number = other then (kind next).toNat else 0) (other : Nat) :
    between.count other = ((after.task? other).any kind).toNat := by
  have hmoved := hmoved other
  have hold := hbefore other
  rw [hlookup]
  by_cases hother : other = task.number
  · subst hother
    rw [hknown] at hold
    simp only [if_true, Option.any_some] at hmoved hold ⊢
    omega
  · rw [if_neg (Ne.symm hother), if_neg (Ne.symm hother)] at hmoved
    rw [if_neg hother, ← hold]
    exact hmoved

/-- A pool in order, in which only this task's number comes or goes, and as its phase says. -/
structure Follows (transport : Transport) (task next : Task) (pool : Pool Nat) : Prop where
  accounted : pool.Accounted
  unsignalled_eq : pool.idle.unsignalled = 0
  claimants : ∀ other,
    pool.claimants.count other + (if task.number = other then task.isClaiming.toNat else 0) =
      transport.pool.claimants.count other +
        if task.number = other then next.isClaiming.toNat else 0
  guards : ∀ other,
    pool.guards.count other + (if task.number = other then task.isPushing.toNat else 0) =
      transport.pool.guards.count other +
        if task.number = other then next.isPushing.toNat else 0

theorem follows_refl (h : transport.Plugged) (hclaiming : next.isClaiming = task.isClaiming)
    (hpushing : next.isPushing = task.isPushing) :
    Follows transport task next transport.pool where
  accounted := h.accounted
  unsignalled_eq := h.unsignalled_eq
  claimants := fun _ ↦ by rw [hclaiming]
  guards := fun _ ↦ by rw [hpushing]

theorem count_guards (h : transport.Plugged) (hknown : transport.task? task.number = some task)
    (hpushing : task.isPushing = true) : transport.pool.guards.count task.number = 1 := by
  rw [h.guards, hknown, Option.any_some, hpushing]
  rfl

/-- A task that pushes holds a connection. -/
theorem exists_object (h : transport.Plugged) (hknown : transport.task? task.number = some task)
    (hpushing : task.isPushing = true) :
    ∃ connection, transport.pool.object? task.number = some connection := by
  have hmem : task.number ∈ transport.pool.guards := by
    rw [← List.count_pos_iff, h.count_guards hknown hpushing]
    exact Nat.one_pos
  exact Option.isSome_iff_exists.mp
    ((Pool.isSome_object?_iff transport.pool task.number).mpr hmem)

/-- Assumes: a task that pushes, and that has no slot afterwards. -/
theorem follows_giveBack (h : transport.Plugged) (hknown : transport.task? task.number = some task)
    (keep : Bool) (hpushing : task.isPushing = true) (hclaiming : task.isClaiming = false)
    (hclaims : next.isClaiming = false) (hpushes : next.isPushing = false) :
    Follows transport task next (transport.pool.giveBack task.number keep).signal := by
  have hguard := h.count_guards hknown hpushing
  obtain ⟨object, hobject⟩ := h.exists_object hknown hpushing
  have hpending : (transport.pool.giveBack task.number keep).idle.unsignalled = 1 := by
    unfold Pool.giveBack
    rw [hobject]
    exact congrArg (· + 1) h.unsignalled_eq
  refine ⟨(h.accounted.giveBack keep).signal (by rw [hpending]; exact Nat.one_ne_zero), ?_,
    fun other ↦ ?_, fun other ↦ ?_⟩
  · unfold Pool.signal Queue.signal Queue.addPermit
    rw [hpending]
    split <;> rfl
  · rw [Pool.count_claimants_signal, Pool.claimants_giveBack, hclaiming, hclaims]
  · have hmoved := Pool.count_guards_giveBack transport.pool task.number keep other
    rw [hguard] at hmoved
    rw [hpushing, hpushes, Bool.toNat_true, Bool.toNat_false, ite_self]
    exact hmoved

theorem follows (h : transport.Plugged) (hknown : transport.task? task.number = some task)
    {pool : Pool Nat} (hturn : transport.Turn task step pool next) :
    Follows transport task next pool := by
  have hclaimant := h.claimants task.number
  have hguard := h.guards task.number
  rw [hknown, Option.any_some] at hclaimant hguard
  cases hturn with
  | aside haside =>
    obtain ⟨⟨hclaiming, hpushing⟩, hclaims, hpushes⟩ := haside.slots_eq
    exact h.follows_refl (hclaims.trans hclaiming.symm) (hpushes.trans hpushing.symm)
  | claim payload hphase hopen =>
    have hclaiming : task.isClaiming = false := by rw [Task.isClaiming, hphase]
    have hpushing : task.isPushing = false := by rw [Task.isPushing, hphase]
    rw [hclaiming] at hclaimant
    rw [hpushing] at hguard
    refine ⟨h.accounted.ask (Pool.not_isKnown h.accounted hclaimant hguard), ?_, fun other ↦ ?_,
      fun other ↦ ?_⟩
    · exact (Pool.unsignalled_ask _ _).trans h.unsignalled_eq
    · rw [Pool.count_claimants_ask h.accounted, hclaiming]
      simp [Task.isClaiming]
    · rw [Pool.guards_ask, hpushing]
      simp [Task.isPushing]
  | hold payload hphase hready hobject =>
    have hclaiming : task.isClaiming = true := by rw [Task.isClaiming, hphase]
    have hpushing : task.isPushing = false := by rw [Task.isPushing, hphase]
    have hcount := Pool.count_take (h.accounted.granted_of_isReady hready)
      (by rw [hguard, hpushing]; rfl)
    rw [hobject] at hcount
    refine ⟨h.accounted.take hready, (Pool.unsignalled_take _ _).trans h.unsignalled_eq,
      fun other ↦ ?_, fun other ↦ ?_⟩
    · rw [hclaiming, Bool.toNat_true, ← (hcount other).1]
      simp [Task.isClaiming]
    · rw [hpushing, (hcount other).2]
      simp [Task.isPushing]
  | fill payload hphase hready hvacant =>
    have hpushing : task.isPushing = false := by rw [Task.isPushing, hphase]
    have hcount := Pool.count_take (h.accounted.granted_of_isReady hready)
      (by rw [hguard, hpushing]; rfl)
    rw [hvacant] at hcount
    refine ⟨h.accounted.take hready, (Pool.unsignalled_take _ _).trans h.unsignalled_eq,
      fun other ↦ ?_, fun other ↦ ?_⟩
    · rw [← (hcount other).1]
      simp
    · rw [(hcount other).2]
      simp
  | connect payload connection hphase hmaking =>
    have hclaiming : task.isClaiming = true := by rw [Task.isClaiming, hphase]
    have hpushing : task.isPushing = false := by rw [Task.isPushing, hphase]
    refine ⟨h.accounted.finish connection hmaking, h.unsignalled_eq, fun other ↦ ?_,
      fun other ↦ ?_⟩
    · rw [hclaiming, ← Pool.count_claimants_finish connection hmaking other]
      simp [Task.isClaiming]
    · rw [hpushing, Pool.count_guards_finish]
      simp [Task.isPushing]
  | refuse payload hphase hmaking => exact h.follows_refl rfl rfl
  | send payload sent hphase hpurpose =>
    exact h.follows_giveBack hknown true (by rw [Task.isPushing, hphase])
      (by rw [Task.isClaiming, hphase]) rfl rfl
  | giveBack payload hphase hpurpose =>
    exact h.follows_giveBack hknown true (by rw [Task.isPushing, hphase])
      (by rw [Task.isClaiming, hphase]) rfl rfl
  | fail payload hphase =>
    exact h.follows_giveBack hknown false (by rw [Task.isPushing, hphase])
      (by rw [Task.isClaiming, hphase]) rfl rfl

theorem turned (h : transport.Plugged) (hknown : transport.task? task.number = some task)
    (hturned : transport.Turned task step after next) : after.Plugged := by
  have hfollows := h.follows hknown hturned.turn
  exact ⟨hfollows.accounted, hfollows.unsignalled_eq,
    count_of_lookup Task.isClaiming hknown hturned.lookup h.claimants hfollows.claimants,
    count_of_lookup Task.isPushing hknown hturned.lookup h.guards hfollows.guards⟩

theorem of_step? (h : transport.Plugged) (possible : transport.step? step = some after) :
    after.Plugged := by
  rcases turned_of_step? possible with
    ⟨-, hpool, hbegun | htasks⟩ | ⟨task, next, -, hknown, hturned⟩
  · obtain ⟨begun, purpose, hfresh, rfl⟩ := hbegun
    have hnone : ∀ kind : Task → Bool, kind (Task.ofPurpose begun purpose) = false → ∀ other,
        ((transport.begin begun purpose).task? other).any kind =
          (transport.task? other).any kind := by
      intro kind hkind other
      rw [task?_begin purpose hfresh]
      by_cases hother : other = begun
      · rw [if_pos hother, hother, hfresh, Option.any_some, hkind]
        rfl
      · rw [if_neg hother]
    refine ⟨h.accounted, h.unsignalled_eq, fun other ↦ ?_, fun other ↦ ?_⟩
    · rw [hnone Task.isClaiming (by cases purpose <;> rfl)]
      exact h.claimants other
    · rw [hnone Task.isPushing (by cases purpose <;> rfl)]
      exact h.guards other
  · have hsame : ∀ other, after.task? other = transport.task? other := fun other ↦ by
      unfold task?
      rw [htasks]
    refine ⟨hpool ▸ h.accounted, hpool ▸ h.unsignalled_eq, fun other ↦ ?_, fun other ↦ ?_⟩
    · rw [hpool, hsame]
      exact h.claimants other
    · rw [hpool, hsame]
      exact h.guards other
  · exact h.turned hknown hturned

end Plugged

theorem plugged {settings : BrokerSettings} {list : List Bytes}
    {history : List (Transport × Step)} {transport : Transport}
    (run : Run step? (Transport.ofSettings settings list) history transport) : transport.Plugged :=
  run.invariant Plugged (.ofSettings settings list) fun _ _ _ h possible ↦ h.of_step? possible

end Transport

end Broker

end GelfCourier
