import GelfCourier.Proofs.Dispatch.LateRecords
import GelfCourier.Proofs.Event.Filter
import GelfCourier.Proofs.Event.Gathering
import Mathlib.Data.List.Forall2

/-!
What the counters of an observer tell. Events come in while the workers of the hook go on, and other
callers use the same hook. Every event is counted once, every event that passes the filter once more,
and a hook with workers has by then taken in one record for each of these, among those of the other
callers and in the order of the events. A hook that waits takes in none.
-/

set_option autoImplicit false

namespace GelfCourier

/-! ### The record of an event -/

namespace Event

/-- The record tells what the event does. -/
structure Carries (event : Event) (record : Record) : Prop where
  level_eq : record.level = event.level
  /-- The event has a place where both file and line are known. -/
  caller_iff : ∀ caller, record.caller = some caller ↔ event.file = some caller.file ∧
    event.line = some caller.line ∧ caller.function = event.modulePath.getD ""
  /-- The text is the last that a field gives, and empty where none does. -/
  told : ∀ name value text, IsLast TellsText event.fields (name, value) → value.Says text →
    record.message = text
  untold : (∀ field ∈ event.fields, ¬ TellsText field) → record.message = ""
  /-- Any other field is kept as its kind says, and of several with one name the last. -/
  field_iff : ∀ name field, record.fields.get? name = some field ↔ ∃ value,
    IsLast (fun other ↦ other.1 = name ∧ ¬ TellsText other) event.fields (name, value) ∧
      value.KeptAs field

theorem caller?_eq_some_iff {event : Event} {caller : Caller} :
    event.caller? = some caller ↔ event.file = some caller.file ∧
      event.line = some caller.line ∧ caller.function = event.modulePath.getD "" := by
  obtain ⟨file, line, function⟩ := caller
  unfold caller?
  cases event.file <;> cases event.line <;> simp [eq_comm]

theorem carries_toRecord (event : Event) (time : Instant) :
    event.Carries (event.toRecord time) where
  level_eq := rfl
  caller_iff := fun _ ↦ caller?_eq_some_iff
  told := fun _ _ _ hlast hsaid ↦ message_of_isLast hlast hsaid time
  untold := by
    intro hnone
    rw [message_toRecord, text?_eq_none hnone, Option.getD_none]
  field_iff := fun _ _ ↦ get?_gather_eq_some_iff

end Event

namespace Dispatch

/-- A record comes in at the end of the queue, and the next to be sent is the one in front. -/
theorem Moves.items_eq {ρ : Type} {dispatch after : Dispatch ρ} {event : Option (Event ρ)}
    (hmoves : dispatch.Moves event after) :
    ((event.bind Event.begun?).map Prod.snd).toList ++ after.queue.items =
      dispatch.queue.items ++ (event.bind Event.stored?).toList := by
  cases hmoves with
  | store record => rfl
  | signal hpending => exact (Queue.items_addPermit _).trans (List.append_nil _).symm
  | ask w hidle => exact (Queue.items_ask dispatch.queue w).trans (List.append_nil _).symm
  | start w record hasking hready hfront => exact hfront.symm.trans (List.append_nil _).symm
  | stop w hasking hready hempty =>
    change dispatch.queue.items.tail = dispatch.queue.items ++ []
    rw [hempty]
    rfl
  | _ => exact (List.append_nil _).symm

end Dispatch

namespace Hook

/-- The records in the queue of a hook. -/
def queued (hook : Hook) : List Record :=
  hook.dispatch.elim [] fun dispatch ↦ dispatch.queue.items

theorem queued_of_some {hook : Hook} {dispatch : Dispatch Record}
    (hdispatch : hook.dispatch = some dispatch) : hook.queued = dispatch.queue.items := by
  rw [queued, hdispatch]
  rfl

end Hook

namespace Observer

/-! ### Observers at work -/

/-- An observer whose hook is at work. -/
structure Site where
  observer : Observer
  /-- Records handed to the transport, in order. -/
  handed : List Record := []

namespace Site

inductive Step where
  | event (event : Event) (time : Instant)
  /-- Another caller delivers a record by a hook that waits. -/
  | fire (record : Record)
  /-- A worker of the hook or a call to it goes on, or another caller queues a record. -/
  | work (step : Dispatch.Step Record)

/-- The observer after its hook has gone on. -/
def withDispatch (observer : Observer) (dispatch : Dispatch Record) : Observer :=
  { observer with hook := { observer.hook with dispatch := some dispatch } }

def step? (site : Site) : Step → Option Site
  | .event event time => some { site with observer := site.observer.observe event time }
  | .fire record =>
    match site.observer.hook.dispatch with
    | none => some { site with handed := site.handed ++ [record] }
    | some _ => none
  | .work step =>
    match site.observer.hook.dispatch with
    | none => none
    | some dispatch =>
      (dispatch.step? step).map fun after ↦
        { observer := withDispatch site.observer after
          handed := site.handed ++
            (((dispatch.event? step).bind Dispatch.Event.begun?).map Prod.snd).toList }

/-- One step, by what it does to the counters and the hook. -/
inductive Moves (site : Site) : Step → Site → Prop where
  | withhold (event : Event) (time : Instant) (hwithheld : ¬ site.observer.admits event = true) :
      Moves site (.event event time)
        { site with observer := { site.observer with total := site.observer.total + 1 } }
  | queue (event : Event) (time : Instant) (dispatch : Dispatch Record)
      (hadmits : site.observer.admits event = true)
      (hdispatch : site.observer.hook.dispatch = some dispatch) :
      Moves site (.event event time)
        { site with
          observer :=
            { withDispatch site.observer (dispatch.push (event.toRecord time)) with
              total := site.observer.total + 1
              enqueued := site.observer.enqueued + 1 } }
  | drop (event : Event) (time : Instant) (hadmits : site.observer.admits event = true)
      (hwaits : site.observer.hook.dispatch = none) :
      Moves site (.event event time)
        { site with
          observer :=
            { site.observer with
              total := site.observer.total + 1
              dropped := site.observer.dropped + 1 } }
  | fire (record : Record) (hwaits : site.observer.hook.dispatch = none) :
      Moves site (.fire record) { site with handed := site.handed ++ [record] }
  | work (step : Dispatch.Step Record) (dispatch after : Dispatch Record)
      (hdispatch : site.observer.hook.dispatch = some dispatch)
      (hafter : dispatch.step? step = some after) :
      Moves site (.work step)
        { observer := withDispatch site.observer after
          handed := site.handed ++
            (((dispatch.event? step).bind Dispatch.Event.begun?).map Prod.snd).toList }

variable {site after : Site} {step : Step}

theorem moves_event (site : Site) (event : Event) (time : Instant) :
    site.Moves (.event event time)
      { site with observer := site.observer.observe event time } := by
  by_cases hadmits : site.observer.admits event = true
  · rw [observe_of_admits hadmits, handOver, Hook.enqueue]
    cases hdispatch : site.observer.hook.dispatch with
    | none => exact .drop event time hadmits hdispatch
    | some dispatch => exact .queue event time dispatch hadmits hdispatch
  · rw [observe_of_not_admits hadmits time]
    exact .withhold event time hadmits

theorem moves_of_step? (h : site.step? step = some after) : site.Moves step after := by
  cases step with
  | event event time =>
    cases h
    exact moves_event site event time
  | fire record =>
    simp only [step?] at h
    split at h
    · next hwaits => cases h; exact .fire record hwaits
    · cases h
  | work step =>
    simp only [step?] at h
    split at h
    · cases h
    · next dispatch hdispatch =>
      obtain ⟨next, hnext, rfl⟩ := Option.map_eq_some_iff.mp h
      exact .work step dispatch next hdispatch hnext

/-! ### What comes to the hook -/

/-- What a hook takes in. -/
inductive Arrival where
  | shipped (event : Event) (time : Instant)
  /-- A record of another caller. -/
  | fired (record : Record)

def Arrival.record : Arrival → Record
  | .shipped event time => event.toRecord time
  | .fired record => record

/-- The record, if it comes from an event. -/
def Arrival.shipped? : Arrival → Option Record
  | .shipped event time => some (event.toRecord time)
  | .fired _ => none

def Step.event? : Step → Option Event
  | .event observed _ => some observed
  | _ => none

def Step.fired? : Step → Option Record
  | .fire record => some record
  | _ => none

/-- What the hook takes in with a step. -/
def arrival? (site : Site) : Step → Option Arrival
  | .event event time =>
    if site.observer.admits event && !site.observer.hook.isSynchronous then
      some (.shipped event time)
    else none
  | .fire record => some (.fired record)
  | .work step =>
    site.observer.hook.dispatch.bind fun dispatch ↦
      ((dispatch.event? step).bind Dispatch.Event.stored?).map .fired

/-- The events of a run, in order. -/
def seen (history : List (Site × Step)) : List Event :=
  Run.observed (fun _ step ↦ step.event?) history

/-- What the hook took in, in order. -/
def arrivals (history : List (Site × Step)) : List Arrival :=
  Run.observed arrival? history

/-- What other callers have a waiting hook deliver, in order. -/
def fired (history : List (Site × Step)) : List Record :=
  Run.observed (fun _ step ↦ step.fired?) history

/-- The filter on level and target. -/
def passes (minLevel : Level) (event : Event) : Bool :=
  event.level.rank ≤ minLevel.rank && !isOwn event

/-- The counters, the hook and the transport agree with what has happened. -/
structure Books (hook : Hook) (minLevel : Level) (seen : List Event) (arrivals : List Arrival)
    (fired : List Record) (site : Site) : Prop where
  minLevel_eq : site.observer.minLevel = minLevel
  isSynchronous_eq : site.observer.hook.isSynchronous = hook.isSynchronous
  total_eq : site.observer.total = seen.length
  enqueued_eq : site.observer.enqueued =
    if hook.isSynchronous then 0 else (seen.filter (passes minLevel)).length
  dropped_eq : site.observer.dropped =
    if hook.isSynchronous then (seen.filter (passes minLevel)).length else 0
  received : site.handed ++ site.observer.hook.queued =
    hook.queued ++ arrivals.map Arrival.record
  shipped : List.Forall₂ Event.Carries
    (if hook.isSynchronous then [] else seen.filter (passes minLevel))
    (arrivals.filterMap Arrival.shipped?)
  aside : hook.isSynchronous = true → site.observer.hook = hook ∧ site.handed = fired

namespace Books

variable {hook : Hook} {minLevel : Level} {seen : List Event} {arrivals : List Arrival}
  {fired : List Record}

theorem isSynchronous_of_some {dispatch : Dispatch Record}
    (h : Books hook minLevel seen arrivals fired site)
    (hdispatch : site.observer.hook.dispatch = some dispatch) : hook.isSynchronous = false := by
  rw [← h.isSynchronous_eq, Hook.isSynchronous, hdispatch]
  rfl

theorem isSynchronous_of_none (h : Books hook minLevel seen arrivals fired site)
    (hwaits : site.observer.hook.dispatch = none) : hook.isSynchronous = true := by
  rw [← h.isSynchronous_eq, Hook.isSynchronous, hwaits]
  rfl

theorem passes_eq (h : Books hook minLevel seen arrivals fired site) (event : Event) :
    passes minLevel event = site.observer.admits event := by
  rw [← h.minLevel_eq]
  rfl

theorem filter_seen (h : Books hook minLevel seen arrivals fired site) (event : Event) :
    (seen ++ [event]).filter (passes minLevel) =
      seen.filter (passes minLevel) ++ if site.observer.admits event then [event] else [] := by
  rw [List.filter_append, ← h.passes_eq]
  cases hpasses : passes minLevel event <;> simp [hpasses]

theorem withhold (h : Books hook minLevel seen arrivals fired site) {event : Event}
    (hwithheld : ¬ site.observer.admits event = true) :
    Books hook minLevel (seen ++ [event]) arrivals fired
      { site with observer := { site.observer with total := site.observer.total + 1 } } := by
  have hfilter := h.filter_seen event
  rw [if_neg hwithheld, List.append_nil] at hfilter
  refine ⟨h.minLevel_eq, h.isSynchronous_eq, ?_, ?_, ?_, h.received, ?_, h.aside⟩
  · rw [List.length_append, ← h.total_eq]
    rfl
  · rw [hfilter]
    exact h.enqueued_eq
  · rw [hfilter]
    exact h.dropped_eq
  · rw [hfilter]
    exact h.shipped

theorem queue (h : Books hook minLevel seen arrivals fired site) {event : Event}
    {dispatch : Dispatch Record} (hadmits : site.observer.admits event = true)
    (hdispatch : site.observer.hook.dispatch = some dispatch) (time : Instant) :
    Books hook minLevel (seen ++ [event]) (arrivals ++ [.shipped event time]) fired
      { site with
        observer :=
          { withDispatch site.observer (dispatch.push (event.toRecord time)) with
            total := site.observer.total + 1
            enqueued := site.observer.enqueued + 1 } } := by
  have hqueues := h.isSynchronous_of_some hdispatch
  have hfilter := h.filter_seen event
  rw [if_pos hadmits] at hfilter
  have hreceived := h.received
  rw [Hook.queued_of_some hdispatch] at hreceived
  refine ⟨h.minLevel_eq, hqueues.symm, ?_, ?_, ?_, ?_, ?_, ?_⟩
  · rw [List.length_append, ← h.total_eq]
    rfl
  · simp [hfilter, h.enqueued_eq, hqueues]
  · simp [withDispatch, h.dropped_eq, hqueues]
  · rw [List.map_append, ← List.append_assoc, ← hreceived, List.append_assoc]
    exact congrArg (site.handed ++ ·) (Dispatch.items_push dispatch (event.toRecord time))
  · have hshipped := h.shipped
    rw [hqueues, if_neg Bool.false_ne_true] at hshipped ⊢
    rw [hfilter, List.filterMap_append]
    exact List.rel_append hshipped (.cons (event.carries_toRecord time) .nil)
  · rw [hqueues]
    exact nofun

theorem drop (h : Books hook minLevel seen arrivals fired site) {event : Event}
    (hadmits : site.observer.admits event = true)
    (hwaits : site.observer.hook.dispatch = none) :
    Books hook minLevel (seen ++ [event]) arrivals fired
      { site with
        observer :=
          { site.observer with
            total := site.observer.total + 1
            dropped := site.observer.dropped + 1 } } := by
  have hsync := h.isSynchronous_of_none hwaits
  have hfilter := h.filter_seen event
  rw [if_pos hadmits] at hfilter
  refine ⟨h.minLevel_eq, h.isSynchronous_eq, ?_, ?_, ?_, h.received, ?_, h.aside⟩
  · rw [List.length_append, ← h.total_eq]
    rfl
  · simp [h.enqueued_eq, hsync]
  · simp [hfilter, h.dropped_eq, hsync]
  · have hshipped := h.shipped
    rw [hsync, if_pos rfl] at hshipped ⊢
    exact hshipped

theorem fire (h : Books hook minLevel seen arrivals fired site) (record : Record)
    (hwaits : site.observer.hook.dispatch = none) :
    Books hook minLevel seen (arrivals ++ [.fired record]) (fired ++ [record])
      { site with handed := site.handed ++ [record] } := by
  obtain ⟨hhook, hhanded⟩ := h.aside (h.isSynchronous_of_none hwaits)
  have hempty : site.observer.hook.queued = [] := by
    rw [Hook.queued, hwaits]
    rfl
  have hreceived := h.received
  rw [hempty, List.append_nil] at hreceived
  refine ⟨h.minLevel_eq, h.isSynchronous_eq, h.total_eq, h.enqueued_eq, h.dropped_eq, ?_, ?_,
    fun _ ↦ ⟨hhook, congrArg (· ++ [record]) hhanded⟩⟩
  · rw [hempty, List.append_nil, hreceived, List.map_append, List.append_assoc]
    rfl
  · rw [List.filterMap_append]
    exact (List.append_nil (arrivals.filterMap Arrival.shipped?)).symm ▸ h.shipped

theorem work (h : Books hook minLevel seen arrivals fired site) {dispatch after : Dispatch Record}
    {event : Option (Dispatch.Event Record)}
    (hdispatch : site.observer.hook.dispatch = some dispatch)
    (hmoves : dispatch.Moves event after) :
    Books hook minLevel seen
      (arrivals ++ ((event.bind Dispatch.Event.stored?).map Arrival.fired).toList) fired
      { observer := withDispatch site.observer after
        handed := site.handed ++ ((event.bind Dispatch.Event.begun?).map Prod.snd).toList } := by
  have hqueues := h.isSynchronous_of_some hdispatch
  have hreceived := h.received
  rw [Hook.queued_of_some hdispatch] at hreceived
  refine ⟨h.minLevel_eq, hqueues.symm, h.total_eq, h.enqueued_eq, h.dropped_eq, ?_, ?_, ?_⟩
  · rw [List.append_assoc, Hook.queued_of_some rfl, hmoves.items_eq, ← List.append_assoc,
      hreceived, List.map_append, List.append_assoc]
    cases event.bind Dispatch.Event.stored? <;> rfl
  · have hnone : (((event.bind Dispatch.Event.stored?).map Arrival.fired).toList).filterMap
        Arrival.shipped? = [] := by
      cases event.bind Dispatch.Event.stored? <;> rfl
    rw [List.filterMap_append, hnone, List.append_nil]
    exact h.shipped
  · rw [hqueues]
    exact nofun

theorem moves (h : Books hook minLevel seen arrivals fired site) (hmoves : site.Moves step after) :
    Books hook minLevel (seen ++ step.event?.toList) (arrivals ++ (site.arrival? step).toList)
      (fired ++ step.fired?.toList) after := by
  cases hmoves with
  | withhold event time hwithheld =>
    have harrival : site.arrival? (.event event time) = none := by simp [arrival?, hwithheld]
    rw [harrival]
    simpa [Step.event?, Step.fired?] using h.withhold hwithheld
  | queue event time dispatch hadmits hdispatch =>
    have harrival : site.arrival? (.event event time) = some (.shipped event time) := by
      simp [arrival?, hadmits, Hook.isSynchronous, hdispatch]
    rw [harrival]
    simpa [Step.event?, Step.fired?] using h.queue hadmits hdispatch time
  | drop event time hadmits hwaits =>
    have harrival : site.arrival? (.event event time) = none := by
      simp [arrival?, Hook.isSynchronous, hwaits]
    rw [harrival]
    simpa [Step.event?, Step.fired?] using h.drop hadmits hwaits
  | fire record hwaits => simpa [Step.event?, Step.fired?, arrival?] using h.fire record hwaits
  | work step dispatch after hdispatch hafter =>
    have hworked := h.work hdispatch (Dispatch.moves_of_step? hafter)
    simpa [Step.event?, Step.fired?, arrival?, hdispatch] using hworked

theorem start (hook : Hook) (minLevel : Level) :
    Books hook minLevel [] [] [] { observer := { hook, minLevel } } where
  minLevel_eq := rfl
  isSynchronous_eq := rfl
  total_eq := rfl
  enqueued_eq := by cases hook.isSynchronous <;> rfl
  dropped_eq := by cases hook.isSynchronous <;> rfl
  received := (List.append_nil hook.queued).symm
  shipped := by cases hook.isSynchronous <;> exact .nil
  aside := fun _ ↦ ⟨rfl, rfl⟩

theorem of_run {history : List (Site × Step)}
    (run : Run step? { observer := { hook, minLevel } } history site) :
    Books hook minLevel (Site.seen history) (Site.arrivals history) (Site.fired history) site := by
  induction run with
  | start => exact .start hook minLevel
  | step _ possible ih =>
    unfold Site.seen Site.arrivals Site.fired
    rw [Run.observed_append_singleton, Run.observed_append_singleton,
      Run.observed_append_singleton]
    exact ih.moves (moves_of_step? possible)

end Books

/-! ### Whole runs -/

/-- What became of the events of a run. -/
structure Accounted (hook : Hook) (minLevel : Level) (history : List (Site × Step))
    (site : Site) : Prop where
  total_eq : site.observer.total = (seen history).length
  passing_eq : site.observer.enqueued + site.observer.dropped =
    ((seen history).filter (passes minLevel)).length
  /-- The hook has everything it took in, in order, but what its workers have already sent. -/
  received : site.handed ++ site.observer.hook.queued =
    hook.queued ++ (arrivals history).map Arrival.record
  /-- A hook with workers takes in one record for each event that passes, in their order. -/
  queues : hook.isSynchronous = false → site.observer.dropped = 0 ∧
    List.Forall₂ Event.Carries ((seen history).filter (passes minLevel))
      ((arrivals history).filterMap Arrival.shipped?)
  /-- A hook that waits is left as it was, and only other callers send by it. -/
  waits : hook.isSynchronous = true → site.observer.enqueued = 0 ∧ site.observer.hook = hook ∧
    site.handed = fired history

/-- Every event is accounted for, at any level and over any hook, whatever the workers of the hook
and its other callers do in between. -/
theorem accounted_of_run {hook : Hook} {minLevel : Level} {history : List (Site × Step)}
    (run : Run step? { observer := { hook, minLevel } } history site) :
    Accounted hook minLevel history site := by
  have h := Books.of_run run
  refine ⟨h.total_eq, ?_, h.received, fun hqueues ↦ ?_, fun hwaits ↦ ?_⟩
  · rw [h.enqueued_eq, h.dropped_eq]
    cases hook.isSynchronous
    · exact Nat.add_zero _
    · exact Nat.zero_add _
  · have hdropped := h.dropped_eq
    have hshipped := h.shipped
    rw [hqueues, if_neg Bool.false_ne_true] at hdropped hshipped
    exact ⟨hdropped, hshipped⟩
  · have henqueued := h.enqueued_eq
    rw [hwaits, if_pos rfl] at henqueued
    exact ⟨henqueued, h.aside hwaits⟩

/-- A warning, the record of another caller, an event of the library itself and one that is not
severe enough, while a worker begins to send. -/
def mixedSteps : List Step :=
  [.event { level := .warn, target := "app", fields := [("message", .string "low disk")] } {},
    .work (.store { level := .error, message := "other" }), .work .signal,
    .event { level := .error, target := "tracing_gelf_sink::connection" } {},
    .work (.ask 0), .work (.take 0),
    .event { level := .debug, target := "app" } {}]

theorem accounted_of_mixedSteps : ∃ (history : List (Site × Step)) (site : Site),
    Run step? { observer := { hook := .ofSettings {} "h", minLevel := .info } } history site ∧
      site.observer.total = 3 ∧ site.observer.enqueued = 1 ∧
      site.handed.map Record.message = ["low disk"] ∧
      site.observer.hook.queued.map Record.message = ["other"] ∧
      Accounted (.ofSettings {} "h") .info history site := by
  have hfollow : (Run.follow? step?
      { observer := { hook := .ofSettings {} "h", minLevel := .info } } mixedSteps).map
      (fun taken ↦ (taken.2.observer.total, taken.2.observer.enqueued,
        taken.2.handed.map Record.message, taken.2.observer.hook.queued.map Record.message)) =
        some (3, 1, ["low disk"], ["other"]) := by
    decide
  obtain ⟨⟨history, site⟩, htaken, hcounts⟩ := Option.map_eq_some_iff.mp hfollow
  have run := Run.of_follow? htaken
  simp only [Prod.mk.injEq] at hcounts
  obtain ⟨htotal, henqueued, hhanded, hqueued⟩ := hcounts
  exact ⟨history, site, run, htotal, henqueued, hhanded, hqueued, accounted_of_run run⟩

end Site

end Observer

end GelfCourier
