import GelfCourier.Hook
import GelfCourier.Proofs.Run
import GelfCourier.Simulation.HookRun
import Mathlib.Data.List.Induction

/-!
Hooks at work. A transport answers to the messages it has received, and sees of a hook its messages
and its close. A waiting hook sends each record in the call that fires it (`Line.fire`); under a
script its calls return the same (`Mirrors.beginFire`, `ending_close`). Of a hook with one worker
the caller that queues records, the worker and the call that flushes and closes the hook take their
steps in any order (`Session.step?`): each of them is a step of the dispatch.
-/

set_option autoImplicit false

namespace GelfCourier.Hook

/-- What a transport is asked to do. -/
inductive Contact where
  | send (message : Message)
  | close

def Contact.message? : Contact → Option Message
  | .send message => some message
  | .close => none

/-- The messages received, in order. -/
def messages (contacts : List Contact) : List Message :=
  contacts.filterMap Contact.message?

/-- A transport whose answers depend on the messages that it has received. -/
structure Receiver where
  /-- The answer to the last of these messages. -/
  answer : List Message → Except TransportFault Unit
  /-- The answer to a close after these messages. -/
  closing : List Message → Except TransportFault Unit

/-- The contact by which a record is sent. -/
def contactOf (encoder : Encoder) (record : Record) : Contact :=
  .send (encoder.encode record)

/-! ### A hook that waits -/

/-- A hook at its transport, with what its calls have returned. -/
structure Line where
  hook : Hook
  contacts : List Contact := []
  results : List (Except HookFault Unit) := []
  /-- What the close has returned. -/
  ending : Option (Except HookFault Unit) := none

namespace Line

/-- Delivers one record: a waiting hook sends it, any other hook queues it. -/
def fire (receiver : Receiver) (line : Line) (record : Record) : Line :=
  match line.hook.dispatch with
  | some dispatch =>
    { line with
      hook := { line.hook with dispatch := some (dispatch.push record) }
      results := line.results ++ [.ok ()] }
  | none =>
    let contacts := line.contacts ++ [contactOf line.hook.encoder record]
    { line with
      contacts
      results := line.results ++ [(receiver.answer (messages contacts)).mapError .transport] }

/-- Closes the transport. A waiting hook has nothing to flush and no workers. -/
def close (receiver : Receiver) (line : Line) : Line :=
  { line with
    contacts := line.contacts ++ [.close]
    ending := some ((receiver.closing (messages line.contacts)).mapError .transport) }

/-- How many calls returned that their record was sent. -/
def delivered (line : Line) : Nat :=
  line.results.countP Except.isOk

def failed (line : Line) : Nat :=
  line.results.countP fun result ↦ !result.isOk

end Line

/-- Fires records one after another. -/
def fireAll (receiver : Receiver) (hook : Hook) (records : List Record) : Line :=
  records.foldl (Line.fire receiver) { hook }

/-- What the calls of a waiting hook come to: the records are fired one after another, and the hook
is closed. -/
def waited (receiver : Receiver) (settings : HookSettings) (hostname : String)
    (records : List Record) : Line :=
  (fireAll receiver (.ofSettings { settings with synchronous := true } hostname) records).close
    receiver

section Waiting

variable {receiver : Receiver} {hook : Hook} {line : Line}

theorem fire_eq (hwaiting : line.hook.dispatch = none) (record : Record) :
    line.fire receiver record =
      { line with
        contacts := line.contacts ++ [contactOf line.hook.encoder record]
        results := line.results ++ [(receiver.answer (messages
          (line.contacts ++ [contactOf line.hook.encoder record]))).mapError .transport] } := by
  unfold Line.fire
  rw [hwaiting]

theorem isOk_mapError {α ε ε' : Type} (f : ε → ε') (result : Except ε α) :
    (result.mapError f).isOk = result.isOk := by
  cases result <;> rfl

theorem delivered_fire (hwaiting : line.hook.dispatch = none) (record : Record) :
    (line.fire receiver record).delivered = line.delivered +
      (receiver.answer (messages (line.fire receiver record).contacts)).isOk.toNat := by
  rw [fire_eq hwaiting, Line.delivered, List.countP_append, List.countP_singleton, isOk_mapError,
    ← Bool.cond_eq_ite]
  rfl

theorem failed_fire (hwaiting : line.hook.dispatch = none) (record : Record) :
    (line.fire receiver record).failed = line.failed +
      (!(receiver.answer (messages (line.fire receiver record).contacts)).isOk).toNat := by
  rw [fire_eq hwaiting, Line.failed, List.countP_append, List.countP_singleton, isOk_mapError,
    ← Bool.cond_eq_ite]
  rfl

theorem fireAll_append_singleton (receiver : Receiver) (hook : Hook) (records : List Record)
    (record : Record) : fireAll receiver hook (records ++ [record]) =
      (fireAll receiver hook records).fire receiver record := by
  unfold fireAll
  rw [List.foldl_append]
  rfl

theorem hook_fireAll (hwaiting : hook.dispatch = none) (records : List Record) :
    (fireAll receiver hook records).hook = hook := by
  induction records using List.reverseRecOn with
  | nil => rfl
  | append_singleton records record ih =>
    rw [fireAll_append_singleton, fire_eq (by rw [ih, hwaiting])]
    exact ih

/-- The transport receives the records in their order. -/
theorem contacts_fireAll (hwaiting : hook.dispatch = none) (records : List Record) :
    (fireAll receiver hook records).contacts = records.map (contactOf hook.encoder) := by
  induction records using List.reverseRecOn with
  | nil => rfl
  | append_singleton records record ih =>
    have hhook : (fireAll receiver hook records).hook = hook := hook_fireAll hwaiting records
    rw [fireAll_append_singleton, fire_eq (by rw [hhook, hwaiting]), List.map_append, ← ih, hhook]
    rfl

end Waiting

/-! ### A hook that waits, under a script -/

section Scripted

open Simulation

/-- The scripted transport, as far as it neither waits nor panics. -/
def scripted (closeFails : Bool) : Receiver where
  answer messages :=
    match messages.getLast?.bind Script.fault? with
    | some fault => .error fault
    | none => .ok ()
  closing _ := if closeFails then .error .closed else .ok ()

/-- The calls of a run have returned what those of a line have. -/
structure Mirrors (run : HookRun) (line : Line) : Prop where
  hook_eq : run.hook = line.hook
  results_eq : run.finished.map (fun entry ↦ entry.2.1) = line.results

theorem messages_append_contactOf (contacts : List Contact) (encoder : Encoder) (record : Record) :
    messages (contacts ++ [contactOf encoder record]) =
      messages contacts ++ [encoder.encode record] := by
  unfold messages
  rw [List.filterMap_append]
  rfl

/-- Assumes: a message whose send takes no time and does not panic. -/
theorem Mirrors.beginFire {run : HookRun} {line : Line} (h : Mirrors run line)
    (hwaiting : line.hook.dispatch = none) {record : Record}
    (hprompt : Script.delay? (line.hook.encoder.encode record) = none)
    (hcalm : Script.panics (line.hook.encoder.encode record) = false) (number : Nat)
    (name : String) :
    Mirrors (run.beginFire number name record) (line.fire (scripted run.closeFails) record) := by
  rw [fire_eq hwaiting, messages_append_contactOf]
  unfold HookRun.beginFire HookRun.settleFire HookRun.answer
  rw [h.hook_eq]
  dsimp only
  rw [hprompt, hcalm]
  dsimp only
  have hlast : (scripted run.closeFails).answer
      (messages line.contacts ++ [line.hook.encoder.encode record]) =
        match Script.fault? (line.hook.encoder.encode record) with
        | some fault => .error fault
        | none => .ok () := by
    unfold scripted
    simp
  rw [hlast]
  cases Script.fault? (line.hook.encoder.encode record) with
  | none =>
    refine ⟨h.hook_eq, ?_⟩
    simp [HookRun.finish, HookRun.setErrand, HookRun.note, h.results_eq, Except.mapError]
  | some fault =>
    refine ⟨h.hook_eq, ?_⟩
    simp [HookRun.finish, HookRun.setErrand, HookRun.note, h.results_eq, Except.mapError]

/-- A close returns what it does under the script. -/
theorem ending_close (run : HookRun) (line : Line) (number : Nat) (name : String) :
    (line.close (scripted run.closeFails)).ending =
      (run.closeTransport number name).finished.getLast?.map fun entry ↦ entry.2.1 := by
  unfold HookRun.closeTransport Line.close scripted
  simp only [HookRun.finish, List.getLast?_append, List.getLast?_singleton, Option.some_or,
    Option.map_some]
  split <;> rfl

end Scripted

/-! ### A hook with a worker -/

/-- A hook whose caller queues records and then flushes and closes it. -/
structure Session where
  encoder : Encoder
  dispatch : Dispatch Record
  /-- Records that have not been queued. -/
  left : List Record
  contacts : List Contact := []
  /-- What the close has returned. -/
  ending : Option (Except HookFault Unit) := none

/-- Who takes the next step. -/
inductive Actor where
  | producer
  | worker
  | closer
  deriving DecidableEq

namespace Session

/-- Nothing has been queued yet. -/
def fresh (encoder : Encoder) (dispatch : Dispatch Record) (records : List Record) : Session :=
  { encoder, dispatch, left := records }

/-- A hook that does not wait. -/
def ofHook? (hook : Hook) (records : List Record) : Option Session :=
  hook.dispatch.map fun dispatch ↦ fresh hook.encoder dispatch records

def queue (session : Session) : Queue Record :=
  session.dispatch.queue

/-- The only worker. -/
def worker (session : Session) : Worker Record :=
  session.dispatch.worker 0

/-- The next step of each. A record is queued in two steps, and the flush begins behind the last. -/
def action? (receiver : Receiver) (session : Session) : Actor → Option (Dispatch.Step Record)
  | .producer =>
    if session.queue.unsignalled ≠ 0 then some .signal
    else
      match session.left with
      | record :: _ => some (.store record)
      | [] => if session.dispatch.calls = [] then some (.begin 0 .flushAndClose) else none
  | .worker =>
    match session.worker with
    | .idle => some (.ask 0)
    | .asking => some (.take 0)
    | .sending _ => some (.settle 0 (receiver.answer (messages session.contacts)).isOk)
    | _ => none
  | .closer => some (.advance 0)

/-- What the transport sees of a step: a worker that takes a record sends it, and a call that is
about to close the transport does so. -/
def contact? (session : Session) : Dispatch.Step Record → Option Contact
  | .take _ => session.queue.items.head?.map (contactOf session.encoder)
  | .advance number =>
    if (session.dispatch.call? number).map Call.phase = some .closing then some .close else none
  | _ => none

/-- What is left to queue after a step. -/
def leftAfter (session : Session) : Dispatch.Step Record → List Record
  | .store _ => session.left.tail
  | _ => session.left

def step? (receiver : Receiver) (session : Session) (actor : Actor) : Option Session := do
  let action ← session.action? receiver actor
  let dispatch ← session.dispatch.step? action
  let contact := session.contact? action
  return {
    session with
    dispatch
    left := session.leftAfter action
    contacts := session.contacts ++ contact.toList
    ending :=
      match contact with
      | some .close => some ((receiver.closing (messages session.contacts)).mapError .transport)
      | _ => session.ending }

/-- The call has flushed the hook and closed the transport. -/
def isOver (session : Session) : Bool :=
  session.dispatch.calls.any fun call ↦ call.phase = .finished

/-! ### One step -/

variable {receiver : Receiver} {session after : Session} {actor : Actor}

/-- One step, by what it does. -/
inductive Turn (receiver : Receiver) (session : Session) : Actor → Session → Prop where
  | store (record : Record) (rest : List Record) (hleft : session.left = record :: rest) :
      Turn receiver session .producer
        { session with
          dispatch := { session.dispatch with queue := session.queue.store record }
          left := rest }
  | signal (hpending : session.queue.unsignalled ≠ 0) :
      Turn receiver session .producer
        { session with
          dispatch := { session.dispatch with queue := session.queue.signal } }
  | begin (hleft : session.left = []) (hcalls : session.dispatch.calls = []) :
      Turn receiver session .producer
        { session with dispatch := session.dispatch.begin 0 .flushAndClose }
  | ask (hidle : session.worker = .idle) :
      Turn receiver session .worker { session with dispatch := session.dispatch.ask 0 }
  | start (record : Record) (rest : List Record) (hasking : session.worker = .asking)
      (hready : session.queue.isReady 0 = true)
      (hitems : session.queue.items = record :: rest) :
      Turn receiver session .worker
        { session with
          dispatch := session.dispatch.take 0
          contacts := session.contacts ++ [contactOf session.encoder record] }
  | stop (hasking : session.worker = .asking)
      (hready : session.queue.isReady 0 = true)
      (hitems : session.queue.items = []) :
      Turn receiver session .worker { session with dispatch := session.dispatch.take 0 }
  | settle (record : Record) (hsending : session.worker = .sending record) :
      Turn receiver session .worker
        { session with
          dispatch :=
            session.dispatch.settle 0 (receiver.answer (messages session.contacts)).isOk }
  | advance (call : Call) (hcall : session.dispatch.call? 0 = some call)
      (hready : session.dispatch.canAdvance call = true) (hphase : call.phase ≠ .closing) :
      Turn receiver session .closer { session with dispatch := session.dispatch.advance call }
  | close (call : Call) (hcall : session.dispatch.call? 0 = some call)
      (hphase : call.phase = .closing) :
      Turn receiver session .closer
        { session with
          dispatch := session.dispatch.advance call
          contacts := session.contacts ++ [.close]
          ending := some ((receiver.closing (messages session.contacts)).mapError .transport) }

theorem turn_of_step? (hstep : session.step? receiver actor = some after) :
    session.Turn receiver actor after := by
  obtain ⟨action, haction, hstep⟩ := Option.bind_eq_some_iff.mp hstep
  obtain ⟨dispatch, hdispatch, hstep⟩ := Option.bind_eq_some_iff.mp hstep
  cases hstep
  cases actor with
  | producer =>
    simp only [action?] at haction
    split at haction
    · next hpending =>
      cases haction
      have hunsignalled : session.dispatch.queue.unsignalled ≠ 0 := hpending
      rw [Dispatch.step?, if_neg hunsignalled] at hdispatch
      cases hdispatch
      simpa [contact?, leftAfter, queue] using Turn.signal hpending
    · split at haction
      · next record rest hleft =>
        cases haction
        cases hdispatch
        simpa [contact?, leftAfter, queue, hleft] using Turn.store record rest hleft
      · next hleft =>
        split at haction
        · next hcalls =>
          cases haction
          have hfresh : session.dispatch.call? 0 = none := by
            rw [Dispatch.call?, hcalls]
            rfl
          rw [Dispatch.step?, hfresh] at hdispatch
          cases hdispatch
          simpa [contact?, leftAfter, queue] using Turn.begin hleft hcalls
        · cases haction
  | worker =>
    simp only [action?] at haction
    split at haction
    · next hidle =>
      cases haction
      have hworker : session.dispatch.worker 0 = .idle := hidle
      rw [Dispatch.step?, hworker] at hdispatch
      cases hdispatch
      simpa [contact?, leftAfter, queue] using Turn.ask hidle
    · next hasking =>
      cases haction
      have hworker : session.dispatch.worker 0 = .asking := hasking
      rw [Dispatch.step?, hworker] at hdispatch
      split at hdispatch
      · next hready =>
        cases hdispatch
        have hready : session.queue.isReady 0 = true := hready
        cases hitems : session.queue.items with
        | nil => simpa [contact?, leftAfter, hitems] using Turn.stop hasking hready hitems
        | cons record rest =>
          simpa [contact?, leftAfter, hitems, contactOf] using
            Turn.start record rest hasking hready hitems
      · cases hdispatch
    · next record hsending =>
      cases haction
      have hworker : session.dispatch.worker 0 = .sending record := hsending
      rw [Dispatch.step?, hworker] at hdispatch
      cases hdispatch
      simpa [contact?, leftAfter, queue] using Turn.settle record hsending
    · cases haction
  | closer =>
    cases haction
    simp only [Dispatch.step?] at hdispatch
    split at hdispatch
    · cases hdispatch
    · next call hcall =>
      split at hdispatch
      · next hready =>
        cases hdispatch
        by_cases hphase : call.phase = .closing
        · simpa [contact?, leftAfter, queue, hcall, hphase] using Turn.close call hcall hphase
        · simpa [contact?, leftAfter, queue, hcall, hphase] using
            Turn.advance call hcall hready hphase
      · cases hdispatch

end Session

end GelfCourier.Hook
