import GelfCourier.Proofs.Concurrent.QueueOrder
import GelfCourier.Proofs.Dispatch.Moves
import GelfCourier.Proofs.Hook.Sessions

/-!
How far a session has come. Its call goes through its phases in order, and with each of them comes
what holds of the queue, of the producer and of the worker (`Session.Stage`): while the queue is
open the worker is there, and a call that no longer waits for it finds the queue empty.
-/

set_option autoImplicit false

namespace GelfCourier.Hook

variable {receiver : Receiver} {session after : Session} {actor : Actor}

namespace Session

/-! ### The only call -/

/-- The call in one of its phases. -/
def flushAndClose (phase : CallPhase) : Call :=
  ⟨0, .flushAndClose, phase⟩

/-- The phase that comes next, where a flush finds nothing pending. -/
def following (unclaimed : List Nat) : CallPhase → CallPhase
  | .flushing => .stopping
  | .stopping => .joining unclaimed
  | .joining (_ :: rest) => .joining rest
  | .joining [] => .closing
  | .closing => .finished
  | .finished => .finished

section Phases

variable {dispatch : Dispatch Record} {phase : CallPhase} {call : Call}

theorem call_eq (hcalls : dispatch.calls = [flushAndClose phase])
    (hcall : dispatch.call? 0 = some call) : call = flushAndClose phase := by
  rw [Dispatch.call?, hcalls] at hcall
  exact (Option.some.inj hcall).symm

theorem calls_begin (hcalls : dispatch.calls = []) :
    (dispatch.begin 0 .flushAndClose).calls = [flushAndClose .flushing] := by
  unfold Dispatch.begin
  rw [hcalls]
  rfl

theorem calls_setPhase (hcalls : dispatch.calls = [flushAndClose phase]) (next : CallPhase) :
    (dispatch.setPhase 0 next).calls = [flushAndClose next] := by
  unfold Dispatch.setPhase
  rw [hcalls]
  rfl

/-- The flush looks at the queue. -/
theorem advance_flushing (dispatch : Dispatch Record) :
    dispatch.advance (flushAndClose .flushing) =
      if dispatch.queue.isEmpty then dispatch.setPhase 0 .stopping else dispatch :=
  rfl

theorem calls_advance (hcalls : dispatch.calls = [flushAndClose phase])
    (hlook : phase = .flushing → dispatch.queue.isEmpty = true) :
    (dispatch.advance (flushAndClose phase)).calls =
      [flushAndClose (following dispatch.unclaimed phase)] := by
  cases phase with
  | flushing =>
    rw [advance_flushing, if_pos (hlook rfl)]
    exact calls_setPhase hcalls .stopping
  | stopping => exact calls_setPhase hcalls (.joining dispatch.unclaimed)
  | joining waited =>
    cases waited with
    | nil => exact calls_setPhase hcalls .closing
    | cons first rest => exact calls_setPhase hcalls (.joining rest)
  | closing => exact calls_setPhase hcalls .finished
  | finished => exact hcalls

theorem isOver_eq (hcalls : session.dispatch.calls = [flushAndClose phase]) :
    session.isOver = decide (phase = .finished) := by
  rw [isOver, hcalls]
  exact Bool.or_false _

/-- A call that does not close the transport is not over, before or after. -/
theorem isOver_advance (hcalls : session.dispatch.calls = [flushAndClose phase])
    (hphase : phase ≠ .closing) :
    isOver { session with dispatch := session.dispatch.advance (flushAndClose phase) } =
      session.isOver := by
  by_cases hlook : phase = .flushing → session.dispatch.queue.isEmpty = true
  · have hafter := calls_advance hcalls hlook
    rw [isOver_eq hcalls, isOver_eq hafter]
    cases phase with
    | flushing => rfl
    | stopping => rfl
    | joining waited => cases waited <;> rfl
    | closing => exact absurd rfl hphase
    | finished => rfl
  · obtain ⟨rfl, hpending⟩ := Classical.not_imp.mp hlook
    rw [advance_flushing, if_neg hpending]

end Phases

/-! ### Stages -/

/-- How far the close has come. -/
inductive Stage (session : Session) : Prop where
  /-- The queue is open, and if the call has begun then all records are queued. -/
  | before (hopen : session.queue.closed = false) (hlive : session.worker.hasExited = false)
      (hunclaimed : session.dispatch.unclaimed = [0])
      (hcalls : session.dispatch.calls = [] ∨ session.left = [] ∧
        (session.dispatch.calls = [flushAndClose .flushing] ∨
          session.dispatch.calls = [flushAndClose .stopping]))
  /-- The call waits for the worker. -/
  | draining (hclosed : session.queue.closed = true) (hleft : session.left = [])
      (hcalls : session.dispatch.calls = [flushAndClose (.joining [0])])
      (hworker : session.worker.hasExited = false ∨
        session.worker = .stopped ∧ session.queue.items = [])
  /-- The worker has left. -/
  | drained (hclosed : session.queue.closed = true) (hleft : session.left = [])
      (hworker : session.worker = .stopped) (hitems : session.queue.items = [])
      (phase : CallPhase) (hphase : phase = .joining [] ∨ phase = .closing ∨ phase = .finished)
      (hcalls : session.dispatch.calls = [flushAndClose phase])

/-- One worker is there, and the queue knows of its pop. -/
structure Manned (session : Session) : Prop where
  workers_eq : session.dispatch.workers = [session.worker]
  sound : session.queue.Sound
  attended : session.queue.callers.Perm (if session.worker.isAsking then [0] else [])
  stage : session.Stage

theorem worker_eq {dispatch : Dispatch Record} {worker : Worker Record}
    (hworkers : dispatch.workers = [worker]) : dispatch.worker 0 = worker := by
  rw [Dispatch.worker, hworkers]
  rfl

theorem workers_setWorker {dispatch : Dispatch Record} {worker : Worker Record}
    (hworkers : dispatch.workers = [worker]) (new : Worker Record) :
    (dispatch.setWorker 0 new).workers = [new] := by
  unfold Dispatch.setWorker
  rw [hworkers]
  rfl

/-- A worker that is there goes on, and neither the queue nor the call comes to another stage. -/
theorem Stage.work (h : session.Stage) (hlive : session.worker.hasExited = false)
    (hstill : after.worker.hasExited = false)
    (hclosed : after.queue.closed = session.queue.closed)
    (hunclaimed : after.dispatch.unclaimed = session.dispatch.unclaimed)
    (hcalls : after.dispatch.calls = session.dispatch.calls) (hleft : after.left = session.left) :
    after.Stage := by
  cases h with
  | before hopen _ hzero hearly =>
    refine .before (hclosed.trans hopen) hstill (hunclaimed.trans hzero) ?_
    rw [hcalls, hleft]
    exact hearly
  | draining hshut hnone hjoining _ =>
    exact .draining (hclosed.trans hshut) (hleft.trans hnone) (hcalls.trans hjoining) (.inl hstill)
  | drained _ _ hstopped =>
    rw [hstopped] at hlive
    cases hlive

namespace Manned

theorem start {workers : Nat} (hworkers : workers ≤ 1) (encoder : Encoder) (records : List Record) :
    (fresh encoder (.start workers) records).Manned := by
  have hone : max workers 1 = 1 := by omega
  unfold Dispatch.start
  rw [hone]
  exact ⟨rfl, .empty, .refl _, .before rfl rfl rfl (.inl rfl)⟩

theorem of_workers {new : Worker Record} (hworkers : after.dispatch.workers = [new])
    (hsound : after.queue.Sound)
    (hattended : after.queue.callers.Perm (if new.isAsking then [0] else []))
    (hstage : after.worker = new → after.Stage) : after.Manned := by
  have hworker : after.worker = new := worker_eq hworkers
  exact ⟨hworker ▸ hworkers, hsound, hworker ▸ hattended, hstage hworker⟩

/-- A worker that is there takes a step of its own and stays. -/
theorem work (h : session.Manned) {new : Worker Record} (hlive : session.worker.hasExited = false)
    (hworkers : after.dispatch.workers = [new]) (hnew : new.hasExited = false)
    (hsound : after.queue.Sound)
    (hattended : after.queue.callers.Perm (if new.isAsking then [0] else []))
    (hclosed : after.queue.closed = session.queue.closed)
    (hunclaimed : after.dispatch.unclaimed = session.dispatch.unclaimed)
    (hcalls : after.dispatch.calls = session.dispatch.calls) (hleft : after.left = session.left) :
    after.Manned :=
  of_workers hworkers hsound hattended fun hworker ↦
    h.stage.work hlive (hworker ▸ hnew) hclosed hunclaimed hcalls hleft

/-- The worker finds nothing at the front and leaves. -/
theorem stop (h : session.Manned) (hasking : session.worker = .asking)
    (hready : session.queue.isReady 0 = true) (hitems : session.queue.items = []) :
    Manned { session with dispatch := session.dispatch.take 0 } := by
  have hattended := (Queue.callers_take hready).symm.trans h.attended
  have hclosed := h.sound.closed_of_items_eq_nil hready hitems
  rw [hasking] at hattended
  rw [Dispatch.take_of_empty hitems]
  refine of_workers (workers_setWorker h.workers_eq .stopped) (h.sound.take hready)
    (List.Perm.cons_inv hattended) fun hstopped ↦ ?_
  have hempty : (session.queue.take 0).1.items = [] := by
    change session.queue.items.tail = []
    rw [hitems]
    rfl
  cases h.stage with
  | before hopen => rw [hopen] at hclosed; cases hclosed
  | draining hshut hleft hcalls _ => exact .draining hshut hleft hcalls (.inr ⟨hstopped, hempty⟩)
  | drained _ _ hgone => rw [hasking] at hgone; cases hgone

/-- The call goes on, and the worker does not notice. -/
theorem goOn (h : session.Manned) (hworkers : after.dispatch.workers = session.dispatch.workers)
    (hsound : after.queue.Sound) (hcallers : after.queue.callers.Perm session.queue.callers)
    (hstage : after.worker = session.worker → after.Stage) : after.Manned :=
  of_workers (hworkers.trans h.workers_eq) hsound (hcallers.trans h.attended) hstage

/-- The only call is the one that flushes and closes the hook. -/
theorem calls_eq (h : session.Manned) {call : Call} (hcall : session.dispatch.call? 0 = some call) :
    ∃ phase, call = flushAndClose phase ∧ session.dispatch.calls = [flushAndClose phase] := by
  cases h.stage with
  | before hopen hlive hunclaimed hcalls =>
    rcases hcalls with hnone | ⟨hleft, hflushing | hstopping⟩
    · rw [Dispatch.call?, hnone] at hcall
      cases hcall
    · exact ⟨_, call_eq hflushing hcall, hflushing⟩
    · exact ⟨_, call_eq hstopping hcall, hstopping⟩
  | draining hclosed hleft hcalls hworker => exact ⟨_, call_eq hcalls hcall, hcalls⟩
  | drained hclosed hleft hstopped hempty phase hstep hcalls =>
    exact ⟨phase, call_eq hcalls hcall, hcalls⟩

theorem advance (h : session.Manned) {call : Call} (hcall : session.dispatch.call? 0 = some call)
    (hready : session.dispatch.canAdvance call = true) (hphase : call.phase ≠ .closing) :
    Manned { session with dispatch := session.dispatch.advance call } := by
  obtain ⟨phase, rfl, hcalls⟩ := h.calls_eq hcall
  cases h.stage with
  | before hopen hlive hunclaimed hearly =>
    rw [hcalls] at hearly
    rcases hearly with hnone | ⟨hleft, hflushing | hstopping⟩
    · cases hnone
    · cases hflushing
      rw [advance_flushing]
      split
      · exact h.goOn rfl h.sound (.refl _) fun _ ↦
          .before hopen hlive hunclaimed (.inr ⟨hleft, .inr (calls_setPhase hcalls .stopping)⟩)
      · exact h
    · cases hstopping
      refine h.goOn rfl (.close _) (Queue.callers_close _) fun _ ↦ ?_
      refine .draining rfl hleft ?_ (.inl hlive)
      rw [← hunclaimed]
      exact calls_setPhase hcalls _
  | draining hclosed hleft hjoining hworker =>
    rw [hcalls] at hjoining
    cases hjoining
    have hexited : session.worker.hasExited = true := hready
    rcases hworker with hlive | ⟨hstopped, hempty⟩
    · rw [hexited] at hlive
      cases hlive
    · exact h.goOn rfl h.sound (.refl _) fun _ ↦
        .drained hclosed hleft hstopped hempty _ (.inl rfl) (calls_setPhase hcalls (.joining []))
  | drained hclosed hleft hstopped hempty phase hstep hlate =>
    rw [hcalls] at hlate
    cases hlate
    rcases hstep with rfl | rfl | rfl
    · exact h.goOn rfl h.sound (.refl _) fun _ ↦
        .drained hclosed hleft hstopped hempty _ (.inr (.inl rfl)) (calls_setPhase hcalls .closing)
    · exact absurd rfl hphase
    · cases hready

/-- A call that is about to close the transport has seen the worker leave. -/
theorem drained_of_closing (h : session.Manned) {call : Call}
    (hcall : session.dispatch.call? 0 = some call) (hphase : call.phase = .closing) :
    call = flushAndClose .closing ∧ session.dispatch.calls = [flushAndClose .closing] ∧
      session.queue.closed = true ∧ session.left = [] ∧ session.worker = .stopped ∧
      session.queue.items = [] := by
  obtain ⟨phase, rfl, hcalls⟩ := h.calls_eq hcall
  obtain rfl : phase = .closing := hphase
  cases h.stage with
  | before hopen hlive hunclaimed hearly => simp [hcalls, flushAndClose] at hearly
  | draining hclosed hleft hjoining => simp [hcalls, flushAndClose] at hjoining
  | drained hclosed hleft hstopped hempty => exact ⟨rfl, hcalls, hclosed, hleft, hstopped, hempty⟩

theorem close (h : session.Manned) {call : Call} (hcall : session.dispatch.call? 0 = some call)
    (hphase : call.phase = .closing) (contacts : List Contact)
    (ending : Option (Except HookFault Unit)) :
    Manned { session with dispatch := session.dispatch.advance call, contacts, ending } := by
  obtain ⟨rfl, hcalls, hclosed, hleft, hstopped, hempty⟩ := h.drained_of_closing hcall hphase
  exact h.goOn rfl h.sound (.refl _) fun _ ↦
    .drained hclosed hleft hstopped hempty _ (.inr (.inr rfl)) (calls_setPhase hcalls .finished)

theorem turn (h : session.Manned) (hturn : session.Turn receiver actor after) : after.Manned := by
  cases hturn with
  | store record rest hleft =>
    refine ⟨h.workers_eq, h.sound.store record, h.attended, ?_⟩
    cases h.stage with
    | before hopen hlive hunclaimed hcalls =>
      refine .before hopen hlive hunclaimed (hcalls.imp_right fun hboth ↦ ?_)
      rw [hboth.1] at hleft
      cases hleft
    | draining hclosed hnone => rw [hnone] at hleft; cases hleft
    | drained hclosed hnone => rw [hnone] at hleft; cases hleft
  | signal hpending =>
    have hitems : session.queue.signal.items = session.queue.items := Queue.items_addPermit _
    have hclosed : session.queue.signal.closed = session.queue.closed := Queue.closed_addPermit _
    refine ⟨h.workers_eq, h.sound.signal hpending,
      (Queue.callers_addPermit _).trans h.attended, ?_⟩
    cases h.stage with
    | before hopen hlive hunclaimed hcalls =>
      exact .before (hclosed.trans hopen) hlive hunclaimed hcalls
    | draining hshut hleft hcalls hworker =>
      exact .draining (hclosed.trans hshut) hleft hcalls
        (hworker.imp_right fun hboth ↦ ⟨hboth.1, hitems.trans hboth.2⟩)
    | drained hshut hleft hworker hempty phase hphase hcalls =>
      exact .drained (hclosed.trans hshut) hleft hworker (hitems.trans hempty) phase hphase hcalls
  | begin hleft hcalls =>
    refine ⟨h.workers_eq, h.sound, h.attended, ?_⟩
    cases h.stage with
    | before hopen hlive hunclaimed _ =>
      exact .before hopen hlive hunclaimed (.inr ⟨hleft, .inl (calls_begin hcalls)⟩)
    | draining _ _ hjoining => rw [hcalls] at hjoining; cases hjoining
    | drained _ _ _ _ _ _ hother => rw [hcalls] at hother; cases hother
  | ask hidle =>
    have hattended := h.attended
    rw [hidle] at hattended
    refine h.work (hidle ▸ rfl) (workers_setWorker h.workers_eq .asking) rfl (h.sound.ask 0) ?_
      (Queue.closed_ask _ 0) rfl rfl rfl
    exact (Queue.callers_ask _ 0).trans (hattended.cons 0)
  | start record rest hasking hready hitems =>
    have hattended := (Queue.callers_take hready).symm.trans h.attended
    rw [hasking] at hattended
    rw [Dispatch.take_of_front hitems]
    exact h.work (hasking ▸ rfl) (workers_setWorker h.workers_eq (.sending record)) rfl
      (h.sound.take hready) (List.Perm.cons_inv hattended) rfl rfl rfl rfl
  | stop hasking hready hitems => exact h.stop hasking hready hitems
  | settle record hsending =>
    have hattended := h.attended
    rw [hsending] at hattended
    rw [Dispatch.settle_eq]
    exact h.work (hsending ▸ rfl) (workers_setWorker h.workers_eq .idle) rfl h.sound hattended
      rfl rfl rfl rfl
  | advance call hcall hready hphase => exact h.advance hcall hready hphase
  | close call hcall hphase => exact h.close hcall hphase _ _

theorem isOver_eq_false (h : session.Manned) (hlive : session.worker.hasExited = false) :
    session.isOver = false := by
  cases h.stage with
  | before hopen _ hunclaimed hcalls =>
    rcases hcalls with hnone | ⟨-, hflushing | hstopping⟩
    · rw [isOver, hnone]
      rfl
    · exact isOver_eq hflushing
    · exact isOver_eq hstopping
  | draining hclosed hleft hcalls => exact isOver_eq hcalls
  | drained hclosed hleft hstopped =>
    rw [hstopped] at hlive
    cases hlive

/-- At the end nothing is left anywhere. -/
theorem of_isOver (h : session.Manned) (hover : session.isOver = true) :
    session.worker = .stopped ∧ session.queue.items = [] ∧ session.left = [] := by
  cases h.stage with
  | before hopen hlive =>
    rw [h.isOver_eq_false hlive] at hover
    cases hover
  | draining hclosed hleft hcalls =>
    rw [isOver_eq hcalls] at hover
    cases hover
  | drained hclosed hleft hstopped hempty => exact ⟨hstopped, hempty, hleft⟩

end Manned

end Session

end GelfCourier.Hook
