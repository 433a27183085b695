import GelfCourier.Proofs.Run
import GelfCourier.Proofs.Broker.Tasks

/-!
No payload that a consumer has popped is lost. Whatever the broker does, however the handler ends
and whenever the transport is closed, a popped payload was handled, or dropped as unreadable, or
taken back by the broker, or it is the one that the consumer holds, or the consumer has ended with a
fault because the one attempt to give it back after the close failed.
-/

set_option autoImplicit false

namespace GelfCourier.Broker

/-! ### What happened to the payloads of one task -/

/-- The payloads of a task to which this happened in a run, in order. -/
def record (number : Nat) (event : Event) (history : List (Transport × Transport.Step)) :
    List Bytes :=
  Run.observed (fun transport step ↦ event.payload? (transport.event? number step)) history

theorem record_append_singleton (number : Nat) (event : Event)
    (history : List (Transport × Transport.Step)) (transport : Transport) (step : Transport.Step) :
    record number event (history ++ [(transport, step)]) =
      record number event history ++ (event.payload? (transport.event? number step)).toList :=
  Run.observed_append_singleton _ history transport step

/-- The payloads that a task is done with in this way, in order. -/
def fated (fate : Fate) (settled : List (Bytes × Fate)) : List Bytes :=
  (settled.filter fun entry ↦ entry.2 = fate).map Prod.fst

@[simp]
theorem fated_append_singleton (fate given : Fate) (settled : List (Bytes × Fate))
    (payload : Bytes) : fated fate (settled ++ [(payload, given)]) =
      fated fate settled ++ if given = fate then [payload] else [] := by
  unfold fated
  by_cases hfate : given = fate <;> simp [List.filter_append, hfate]

theorem fated_append_of_ne {fate given : Fate} {settled : List (Bytes × Fate)} {payload : Bytes}
    (hnone : fated fate settled = []) (hgiven : given ≠ fate) :
    fated fate (settled ++ [(payload, given)]) = [] := by
  rw [fated_append_singleton, if_neg hgiven, hnone, List.append_nil]

/-! ### The books of a consumer -/

/-- What is seen when a payload meets its fate. Nobody sees that it is dropped. -/
def Fate.event? : Fate → Option Event
  | .handled => some .handled
  | .dropped => none
  | .returned => some .acknowledged
  | .lost => some .abandoned

/-- Everything popped is settled or held, and the fates are those seen. -/
structure Books (seen : Event → List Bytes) (settled : List (Bytes × Fate)) (held : Option Bytes) :
    Prop where
  popped : seen .popped = settled.map Prod.fst ++ held.toList
  fates : ∀ fate event, fate.event? = some event → seen event = fated fate settled
  dropped : ∀ payload ∈ fated .dropped settled, IsUnreadable payload

namespace Books

variable {seen : Event → List Bytes} {settled : List (Bytes × Fate)} {held : Option Bytes}
  {payload : Bytes}

/-- What has been seen after one more step. -/
def seeing (seen : Event → List Bytes) (happened : Option (Event × Bytes)) : Event → List Bytes :=
  fun event ↦ seen event ++ (event.payload? happened).toList

theorem idle (h : Books seen settled held) : Books (seeing seen none) settled held := by
  have hsame : seeing seen none = seen := by
    funext event
    simp [seeing, Event.payload?]
  rw [hsame]
  exact h

theorem pop (h : Books seen settled none) :
    Books (seeing seen (some (.popped, payload))) settled (some payload) where
  popped := by simp [seeing, Event.payload?, h.popped]
  fates := by
    intro fate event hevent
    have hother : Event.popped ≠ event := by
      rintro rfl
      cases fate <;> cases hevent
    simp [seeing, Event.payload?, hother, h.fates fate event hevent]
  dropped := h.dropped

theorem settle {given : Fate} {happened : Event} (h : Books seen settled (some payload))
    (hgiven : given.event? = some happened) :
    Books (seeing seen (some (happened, payload))) (settled ++ [(payload, given)]) none where
  popped := by
    have hother : happened ≠ Event.popped := by
      rintro rfl
      cases given <;> cases hgiven
    simp [seeing, Event.payload?, hother, h.popped]
  fates := by
    intro fate event hevent
    have hsame : happened = event ↔ given = fate := by
      cases given <;> cases fate <;> cases hgiven <;> cases hevent <;> decide
    by_cases hfate : given = fate
    · simp [seeing, Event.payload?, hsame.mpr hfate, hfate, h.fates fate event hevent]
    · have hother : happened ≠ event := fun h' ↦ hfate (hsame.mp h')
      simp [seeing, Event.payload?, hother, hfate, h.fates fate event hevent]
  dropped := by
    have hother : given ≠ .dropped := by
      rintro rfl
      cases hgiven
    simpa [hother] using h.dropped

theorem drop (h : Books seen settled (some payload)) (hunreadable : IsUnreadable payload) :
    Books seen (settled ++ [(payload, .dropped)]) none where
  popped := by simp [h.popped]
  fates := by
    intro fate event hevent
    have hother : Fate.dropped ≠ fate := by
      rintro rfl
      cases hevent
    simp [hother, h.fates fate event hevent]
  dropped := by
    intro other hother
    rw [fated_append_singleton, if_pos rfl, List.mem_append, List.mem_singleton] at hother
    rcases hother with hother | rfl
    · exact h.dropped other hother
    · exact hunreadable

end Books

/-! ### The invariant of a consumer -/

/-- The books of a consumer are right. It gives a payload back on a fresh connection only when the
transport is closed, and ends with a fault only with the loss of one payload, its last. -/
structure Task.Accounted (closed : Bool) (seen : Event → List Bytes) (task : Task) : Prop where
  books : Books seen task.settled task.phase.held?
  returning : task.phase.IsReturning → closed = true
  ending : (fated .lost task.settled = [] ∧ ∀ fault, task.phase ≠ .finished (.error fault)) ∨
    (closed = true ∧ task.phase = .finished (.error .broker) ∧ ∃ payload earlier,
      task.settled = earlier ++ [(payload, .lost)] ∧ fated .lost earlier = [])

namespace Task.Accounted

variable {closed after : Bool} {seen : Event → List Bytes} {task next : Task}
  {happened : Option (Event × Bytes)}

theorem ofPurpose (number : Nat) :
    (Task.ofPurpose number .consume).Accounted closed fun _ ↦ [] where
  books := ⟨rfl, fun _ _ _ ↦ rfl, fun _ hmem ↦ nomatch hmem⟩
  returning := fun h ↦ h.elim
  ending := .inl ⟨rfl, fun _ h ↦ nomatch h⟩

theorem mono (h : task.Accounted closed seen) (hclosed : closed = true → after = true) :
    task.Accounted after seen where
  books := h.books
  returning := fun hreturning ↦ hclosed (h.returning hreturning)
  ending := h.ending.imp_right fun ⟨hwas, hrest⟩ ↦ ⟨hclosed hwas, hrest⟩

/-- A task that has not ended has lost nothing. -/
theorem fated_lost_eq_nil (h : task.Accounted closed seen) (hbusy : task.phase.isFinished = false) :
    fated .lost task.settled = [] := by
  rcases h.ending with ⟨hnone, -⟩ | ⟨-, hphase, -⟩
  · exact hnone
  · rw [hphase] at hbusy
    cases hbusy

theorem isFinished_of_held? {phase : Phase} {payload : Bytes} (hheld : phase.held? = some payload) :
    phase.isFinished = false := by
  cases phase <;> first | rfl | cases hheld

theorem moves (h : task.Accounted closed seen) (hmoves : task.Moves closed happened next) :
    next.Accounted closed (Books.seeing seen happened) := by
  have hbooks := h.books
  have hlost := h.fated_lost_eq_nil
  cases hmoves with
  | goOn phase connection hheld hbusy hlive hphase =>
    rw [← hheld] at hbooks
    have hrunning : ∀ fault, phase ≠ .finished (.error fault) := by
      rintro fault rfl
      cases hlive
    exact ⟨hbooks.idle, fun h' ↦ (hphase h').elim h.returning id, .inl ⟨hlost hbusy, hrunning⟩⟩
  | stop hphase =>
    rw [hphase] at hbooks hlost
    exact ⟨hbooks.idle, False.elim, .inl ⟨hlost rfl, fun _ h' ↦ nomatch h'⟩⟩
  | receive payload hphase =>
    rw [hphase] at hbooks hlost
    exact ⟨hbooks.pop, False.elim, .inl ⟨hlost rfl, fun _ h' ↦ nomatch h'⟩⟩
  | drop payload hphase hunreadable =>
    rw [hphase] at hbooks hlost
    exact ⟨hbooks.pop.drop hunreadable, False.elim,
      .inl ⟨fated_append_of_ne (hlost rfl) nofun, fun _ h' ↦ nomatch h'⟩⟩
  | handle payload hphase =>
    rw [hphase] at hbooks hlost
    exact ⟨hbooks.settle rfl, False.elim,
      .inl ⟨fated_append_of_ne (hlost rfl) nofun, fun _ h' ↦ nomatch h'⟩⟩
  | giveBack payload hheld =>
    have hbusy := isFinished_of_held? hheld
    rw [hheld] at hbooks
    exact ⟨hbooks.settle rfl, False.elim,
      .inl ⟨fated_append_of_ne (hlost hbusy) nofun, fun _ h' ↦ nomatch h'⟩⟩
  | lose payload hheld hreturning =>
    have hbusy := isFinished_of_held? hheld
    rw [hheld] at hbooks
    exact ⟨hbooks.settle rfl, False.elim,
      .inr ⟨h.returning hreturning, rfl, payload, task.settled, rfl, hlost hbusy⟩⟩

end Task.Accounted

/-! ### Whole runs -/

namespace Transport

variable {settings : BrokerSettings} {list : List Bytes} {history : List (Transport × Step)}
  {transport : Transport} {number : Nat} {task : Task}

theorem record_eq_nil (run : Run step? (ofSettings settings list) history transport)
    (hunknown : transport.task? number = none) (event : Event) :
    record number event history = [] := by
  induction run with
  | start => rfl
  | step run possible ih =>
    have hbefore := task?_eq_none_of_step? possible hunknown
    rw [record_append_singleton, ih hbefore, event?_of_unknown hbefore]
    rfl

/-- The books are right after every run, by induction on the run with every step of a consumer. -/
theorem accounted (run : Run step? (ofSettings settings list) history transport)
    (htask : transport.task? number = some task) (hconsume : task.purpose = .consume) :
    task.Accounted transport.closed fun event ↦ record number event history := by
  induction run generalizing task with
  | start => cases htask
  | @step history before after step run possible ih =>
    have hrecord : (fun event ↦ record number event (history ++ [(before, step)])) =
        Books.seeing (fun event ↦ record number event history) (before.event? number step) := by
      funext event
      exact record_append_singleton number event history before step
    rw [hrecord]
    rcases step?_cases possible htask hconsume with
      ⟨hfresh, rfl⟩ | ⟨old, hold, hwas, hclosed, hmove⟩
    · have hempty : (fun event ↦ record number event history) = fun _ ↦ [] := by
        funext event
        exact record_eq_nil run hfresh event
      rw [hempty, event?_of_unknown hfresh]
      exact .ofPurpose number
    · have haccounted := ih hold hwas
      rcases hmove with ⟨rfl, hnone⟩ | hmoves
      · rw [hnone]
        exact ⟨haccounted.books.idle, (haccounted.mono hclosed).returning,
          (haccounted.mono hclosed).ending⟩
      · exact (haccounted.moves hmoves).mono hclosed

/-- What the broker acknowledged to a task is what it has of this task. -/
theorem appended_eq_record (run : Run step? (ofSettings settings list) history transport)
    (number : Nat) : (transport.appended.filter fun push ↦ push.1 = number).map Prod.snd =
      record number .acknowledged history := by
  induction run with
  | start => rfl
  | @step history before after step run possible ih =>
    rw [record_append_singleton, ← ih]
    rcases step?_eq possible with ⟨hnone, -, happended, -⟩ | ⟨task, hstep, hknown, hstepOf⟩
    · rw [happended, event?_of_ne (by rw [hnone]; simp)]
      simp [Event.payload?]
    · obtain ⟨-, happended, -⟩ := advances_stepOf? hknown hstep hstepOf
      rw [happended, List.filter_append, List.map_append]
      congr 1
      by_cases hnumber : task.number = number
      · rw [hnumber]
        cases hseen : Event.acknowledged.payload? (before.event? number step) <;>
          simp [acknowledged, hseen]
      · have hother : step.task? ≠ some number := by
          rw [hstep]
          exact fun hsame ↦ hnumber (Option.some.inj hsame)
        rw [event?_of_ne hother]
        cases Event.acknowledged.payload? (before.event? task.number step) <;>
          simp [acknowledged, hnumber, Event.payload?]

theorem popEnded_of_held (htask : transport.task? number = some task)
    (hheld : task.phase.held?.isSome = true) (ending : PopEnd) :
    transport.step? (.popEnded number ending) = none := by
  have hpossible : transport.stepOf? task (.popEnded number ending) = none := by
    unfold stepOf?
    cases hphase : task.phase <;> first | rfl | skip
    rw [hphase] at hheld
    cases hheld
  simp only [step?, Step.task?, Option.bind_some, htask, hpossible]

/-- What became of the payloads that a consumer popped in a run. -/
structure Custody (history : List (Transport × Step)) (transport : Transport) (task : Task) :
    Prop where
  /-- In order, each is settled, or it is the one held. -/
  popped : record task.number .popped history =
    task.settled.map Prod.fst ++ task.phase.held?.toList
  handled : fated .handled task.settled = record task.number .handled history
  dropped : ∀ payload ∈ fated .dropped task.settled, IsUnreadable payload
  /-- The broker has taken in what was given back. -/
  returned : fated .returned task.settled =
    (transport.appended.filter fun push ↦ push.1 = task.number).map Prod.snd
  lost : fated .lost task.settled = record task.number .abandoned history
  /-- A loss needs a close. It is the last thing that happens, and the consumer reports it. -/
  losing : ∀ payload ∈ fated .lost task.settled, transport.closed = true ∧
    task.phase = .finished (.error .broker) ∧ fated .lost task.settled = [payload] ∧
    task.settled.getLast? = some (payload, .lost)
  failing : ∀ fault, task.phase = .finished (.error fault) →
    fault = .broker ∧ fated .lost task.settled ≠ []
  leaving : task.phase = .finished (.ok ()) → fated .lost task.settled = [] ∧
    record task.number .popped history = task.settled.map Prod.fst
  holding : task.phase.held?.isSome = true →
    ∀ ending, transport.step? (.popEnded task.number ending) = none

/-- No popped payload is lost, whatever the broker and the handlers do, whenever the close comes,
and among any sends and other consumers. -/
theorem custody_of_run (run : Run step? (ofSettings settings list) history transport)
    (htask : transport.task? number = some task) (hconsume : task.purpose = .consume) :
    Custody history transport task := by
  have haccounted := accounted run htask hconsume
  have hnumber := number_of_task? htask
  subst hnumber
  have hbooks := haccounted.books
  refine ⟨hbooks.popped, (hbooks.fates .handled _ rfl).symm, hbooks.dropped, ?_,
    (hbooks.fates .lost _ rfl).symm, ?_, ?_, ?_, popEnded_of_held htask⟩
  · rw [appended_eq_record run]
    exact (hbooks.fates .returned _ rfl).symm
  · intro payload hpayload
    rcases haccounted.ending with ⟨hnone, -⟩ | ⟨hclosed, hphase, last, earlier, hsettled, hearlier⟩
    · rw [hnone] at hpayload
      cases hpayload
    · have hlost : fated .lost task.settled = [last] := by
        rw [hsettled, fated_append_singleton, hearlier]
        rfl
      rw [hlost, List.mem_singleton] at hpayload
      refine ⟨hclosed, hphase, hpayload ▸ hlost, ?_⟩
      rw [hsettled, hpayload, List.getLast?_concat]
  · intro fault hfault
    rcases haccounted.ending with ⟨-, hrunning⟩ | ⟨-, hphase, last, earlier, hsettled, -⟩
    · exact absurd hfault (hrunning fault)
    · rw [hphase] at hfault
      cases hfault
      refine ⟨rfl, ?_⟩
      rw [hsettled, fated_append_singleton, if_pos rfl]
      exact List.append_ne_nil_of_right_ne_nil _ (List.cons_ne_nil _ _)
  · intro hphase
    refine ⟨?_, ?_⟩
    · rcases haccounted.ending with ⟨hnone, -⟩ | ⟨-, hother, -⟩
      · exact hnone
      · rw [hphase] at hother
        cases hother
    · have hpopped := hbooks.popped
      rw [hphase] at hpopped
      exact hpopped.trans (List.append_nil _)

/-- A consumer drops an octet that is no payload, and loses a message that its handler refuses when
the attempt to give it back after the close fails. -/
def losingSteps (payload : Bytes) : List Step :=
  [.deposit [1], .deposit payload, .consume 1, .look 1, .dialled 1 (.connected 0),
    .popEnded 1 .element, .look 1, .popEnded 1 .element, .close, .handled 1 false, .look 1,
    .dialled 1 (.connected 1), .pushed 1 false]

theorem custody_of_losingSteps : ∃ history transport task,
    Run step? (ofSettings {} []) history transport ∧ transport.task? 1 = some task ∧
      task.purpose = .consume ∧
      task.settled = [([1], .dropped), (Gzip.pack 0 (Bytes.ofString "\x7b\x7d"), .lost)] ∧
      Custody history transport task := by
  have hfollow : ((Run.follow? step? (ofSettings {} [])
      (losingSteps (Gzip.pack 0 (Bytes.ofString "\x7b\x7d")))).bind fun taken ↦
        (taken.2.task? 1).map fun task ↦ (task.purpose, task.settled)) =
      some (.consume, [([1], .dropped), (Gzip.pack 0 (Bytes.ofString "\x7b\x7d"), .lost)]) := by
    decide +kernel
  obtain ⟨⟨history, transport⟩, htaken, hmap⟩ := Option.bind_eq_some_iff.mp hfollow
  obtain ⟨task, htask, hpair⟩ := Option.map_eq_some_iff.mp hmap
  have run := Run.of_follow? htaken
  have hconsume : task.purpose = .consume := congrArg Prod.fst hpair
  exact ⟨history, transport, task, run, htask, hconsume, congrArg Prod.snd hpair,
    custody_of_run run htask hconsume⟩

end Transport

end GelfCourier.Broker
