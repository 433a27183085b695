import GelfCourier.Proofs.Hook.Stages

/-!
A hook with one worker does what a waiting hook does. Behind each settled send stands the call that
fires the same record at a waiting hook (`Session.Tracks`), so the transport has received the same
messages and the counts are those of the results. Every step other than a look at a queue that is
not empty brings the session nearer to its end, and there is such a step until the end is reached.
-/

set_option autoImplicit false

namespace GelfCourier.Hook

variable {receiver : Receiver} {session after : Session} {actor : Actor}

namespace Session

/-! ### What a waiting hook would have done -/

/-- The record that the worker sends. -/
def inHand (session : Session) : List Record :=
  session.worker.record?.toList

theorem inHand_eq {new : Worker Record} (hworkers : session.dispatch.workers = [new]) :
    session.inHand = new.record?.toList :=
  congrArg (fun worker : Worker Record ↦ worker.record?.toList) (worker_eq hworkers)

/-- The session has settled these records of all, and what it has done is what a waiting hook does
that fires them; once it is over, the waiting hook has been closed, too. -/
structure Tracks (receiver : Receiver) (hook : Hook) (records done : List Record)
    (session : Session) : Prop where
  encoder_eq : session.encoder = hook.encoder
  records_eq : done ++ (session.inHand ++ (session.queue.items ++ session.left)) = records
  delivered_eq : session.dispatch.delivered = (fireAll receiver hook done).delivered
  failed_eq : session.dispatch.failed = (fireAll receiver hook done).failed
  unfinished : session.isOver = false →
    session.contacts = (fireAll receiver hook done).contacts ++
      session.inHand.map (contactOf hook.encoder) ∧ session.ending = none
  finished : session.isOver = true →
    session.contacts = ((fireAll receiver hook done).close receiver).contacts ∧
      session.ending = ((fireAll receiver hook done).close receiver).ending

namespace Tracks

variable {hook : Hook} {records done : List Record}

theorem start {workers : Nat} (hworkers : workers ≤ 1) (hook : Hook) (records : List Record) :
    (fresh hook.encoder (.start workers) records).Tracks receiver hook records [] := by
  have hone : max workers 1 = 1 := by omega
  unfold Dispatch.start
  rw [hone]
  exact ⟨rfl, rfl, rfl, rfl, fun _ ↦ ⟨rfl, rfl⟩, fun hover ↦ nomatch hover⟩

/-- Nothing happens that the transport sees or that is counted. -/
theorem keep (h : session.Tracks receiver hook records done)
    (hencoder : after.encoder = session.encoder) (hhand : after.inHand = session.inHand)
    (hrest : after.queue.items ++ after.left = session.queue.items ++ session.left)
    (hdelivered : after.dispatch.delivered = session.dispatch.delivered)
    (hfailed : after.dispatch.failed = session.dispatch.failed)
    (hcontacts : after.contacts = session.contacts) (hending : after.ending = session.ending)
    (hover : after.isOver = session.isOver) : after.Tracks receiver hook records done where
  encoder_eq := hencoder.trans h.encoder_eq
  records_eq := by
    rw [hhand, hrest]
    exact h.records_eq
  delivered_eq := hdelivered.trans h.delivered_eq
  failed_eq := hfailed.trans h.failed_eq
  unfinished := by
    rw [hover, hcontacts, hhand, hending]
    exact h.unfinished
  finished := by
    rw [hover, hcontacts, hending]
    exact h.finished

/-- The worker takes a record and sends it. -/
theorem take (h : session.Tracks receiver hook records done) (hmanned : session.Manned)
    (hasking : session.worker = .asking) {record : Record} {rest : List Record}
    (hitems : session.queue.items = record :: rest) :
    Tracks receiver hook records done
      { session with
        dispatch := session.dispatch.take 0
        contacts := session.contacts ++ [contactOf session.encoder record] } := by
  rw [Dispatch.take_of_front hitems]
  have hnone : session.inHand = [] := by rw [inHand, hasking]; rfl
  have hover := hmanned.isOver_eq_false (hasking ▸ rfl)
  have hworkers := workers_setWorker hmanned.workers_eq (.sending record)
  have hrecords := h.records_eq
  obtain ⟨hcontacts, hending⟩ := h.unfinished hover
  rw [hnone] at hrecords hcontacts
  refine ⟨h.encoder_eq, ?_, h.delivered_eq, h.failed_eq, fun _ ↦ ⟨?_, hending⟩, fun hlater ↦ ?_⟩
  · rw [inHand_eq hworkers, ← hrecords, hitems]
    change done ++ ([record] ++ (session.queue.items.tail ++ session.left)) = _
    rw [hitems]
    rfl
  · rw [inHand_eq hworkers, hcontacts, h.encoder_eq]
    simp [Worker.record?]
  · cases hover.symm.trans hlater

/-- The worker's send is over: the waiting hook fires the record and gets the same answer. -/
theorem settle (h : session.Tracks receiver hook records done) (hwaiting : hook.dispatch = none)
    (hmanned : session.Manned) {record : Record} (hsending : session.worker = .sending record) :
    Tracks receiver hook records (done ++ [record])
      { session with
        dispatch := session.dispatch.settle 0
          (receiver.answer (messages session.contacts)).isOk } := by
  have hhand : session.inHand = [record] := by rw [inHand, hsending]; rfl
  have hover := hmanned.isOver_eq_false (hsending ▸ rfl)
  have hworkers := workers_setWorker hmanned.workers_eq .idle
  have hline : (fireAll receiver hook done).hook = hook := hook_fireAll hwaiting done
  have hwaits : (fireAll receiver hook done).hook.dispatch = none := by rw [hline, hwaiting]
  have hrecords := h.records_eq
  obtain ⟨hcontacts, hending⟩ := h.unfinished hover
  rw [hhand] at hrecords hcontacts
  have hsame : session.contacts = (fireAll receiver hook (done ++ [record])).contacts := by
    rw [hcontacts, fireAll_append_singleton, fire_eq hwaits, hline]
    rfl
  rw [Dispatch.settle_eq]
  refine ⟨h.encoder_eq, ?_, ?_, ?_, fun _ ↦ ⟨?_, hending⟩, fun hlater ↦ ?_⟩
  · rw [inHand_eq hworkers, ← hrecords, List.append_assoc]
    rfl
  · rw [fireAll_append_singleton, delivered_fire hwaits, ← fireAll_append_singleton, ← hsame,
      ← h.delivered_eq]
    rfl
  · rw [fireAll_append_singleton, failed_fire hwaits, ← fireAll_append_singleton, ← hsame,
      ← h.failed_eq]
    rfl
  · rw [inHand_eq hworkers]
    exact hsame.trans (List.append_nil _).symm
  · cases hover.symm.trans hlater

theorem turn (h : session.Tracks receiver hook records done) (hwaiting : hook.dispatch = none)
    (hmanned : session.Manned) (hturn : session.Turn receiver actor after) :
    ∃ settled, after.Tracks receiver hook records settled := by
  cases hturn with
  | store record rest hleft =>
    refine ⟨done, h.keep rfl rfl ?_ rfl rfl rfl rfl rfl⟩
    change session.queue.items ++ [record] ++ rest = _
    rw [hleft, List.append_assoc]
    rfl
  | signal hpending =>
    refine ⟨done, h.keep rfl rfl ?_ rfl rfl rfl rfl rfl⟩
    exact congrArg (· ++ session.left) (Queue.items_addPermit _)
  | begin hleft hcalls =>
    refine ⟨done, h.keep rfl rfl rfl rfl rfl rfl rfl ?_⟩
    simp [isOver, Dispatch.begin, hcalls, Dispatch.firstPhase]
  | ask hidle =>
    refine ⟨done, h.keep rfl ?_ ?_ rfl rfl rfl rfl rfl⟩
    · rw [inHand_eq (workers_setWorker hmanned.workers_eq .asking), inHand, hidle]
      rfl
    · exact congrArg (· ++ session.left) (Queue.items_ask _ 0)
  | start record rest hasking hready hitems => exact ⟨done, h.take hmanned hasking hitems⟩
  | stop hasking hready hitems =>
    rw [Dispatch.take_of_empty hitems]
    refine ⟨done, h.keep rfl ?_ ?_ rfl rfl rfl rfl rfl⟩
    · rw [inHand_eq (workers_setWorker hmanned.workers_eq .stopped), inHand, hasking]
      rfl
    · change session.queue.items.tail ++ session.left = _
      rw [hitems]
      rfl
  | settle record hsending => exact ⟨done ++ [record], h.settle hwaiting hmanned hsending⟩
  | advance call hcall hready hphase =>
    obtain ⟨phase, rfl, hcalls⟩ := hmanned.calls_eq hcall
    obtain ⟨hworkers, hitems, -, hdelivered, hfailed⟩ :=
      session.dispatch.advance_keeps (flushAndClose phase)
    refine ⟨done, h.keep rfl ?_ ?_ hdelivered hfailed rfl rfl
      (isOver_advance hcalls hphase)⟩
    · rw [inHand_eq (hworkers.trans hmanned.workers_eq)]
      rfl
    · exact congrArg (· ++ session.left) hitems
  | close call hcall hphase =>
    obtain ⟨rfl, hcalls, hclosed, hleft, hstopped, hempty⟩ :=
      hmanned.drained_of_closing hcall hphase
    obtain ⟨hcontacts, hending⟩ := h.unfinished (by rw [isOver, hcalls]; rfl)
    have hnone : session.inHand = [] := by rw [inHand, hstopped]; rfl
    rw [hnone, List.map_nil, List.append_nil] at hcontacts
    refine ⟨done, h.encoder_eq, h.records_eq, h.delivered_eq, h.failed_eq, fun hunder ↦ ?_,
      fun _ ↦ ⟨congrArg (· ++ [Contact.close]) hcontacts, ?_⟩⟩
    · have hfinished : (session.dispatch.advance (flushAndClose .closing)).calls =
          [flushAndClose .finished] := calls_setPhase hcalls .finished
      rw [isOver, hfinished] at hunder
      cases hunder
    · rw [hcontacts]
      rfl

end Tracks

/-! ### The way to the end -/

/-- The flush looks at the queue and finds that records are pending. -/
def looks (session : Session) (actor : Actor) : Bool :=
  actor = .closer && !session.queue.isEmpty &&
    session.dispatch.calls.any fun call ↦ call.phase = .flushing

def workerRank : Worker Record → Nat
  | .sending _ => 3
  | .idle => 2
  | .asking => 1
  | _ => 0

/-- How many steps the call has before it, where so many workers may have to be waited for. -/
def phaseRank (workers : Nat) : Option CallPhase → Nat
  | none => workers + 5
  | some .flushing => workers + 4
  | some .stopping => workers + 3
  | some (.joining waited) => waited.length + 2
  | some .closing => 1
  | some .finished => 0

def callRank (dispatch : Dispatch Record) : Nat :=
  phaseRank dispatch.unclaimed.length ((dispatch.call? 0).map Call.phase)

/-- An upper bound of the steps that are left, other than looks. -/
def rank (session : Session) : Nat :=
  5 * session.left.length + 3 * session.queue.items.length + session.queue.unsignalled +
    workerRank session.worker + callRank session.dispatch

theorem rank_start {workers : Nat} (hworkers : workers ≤ 1) (encoder : Encoder)
    (records : List Record) :
    (fresh encoder (.start workers) records).rank = 5 * records.length + 8 := by
  have hone : max workers 1 = 1 := by omega
  unfold Dispatch.start
  rw [hone]
  rfl

theorem callRank_eq {dispatch : Dispatch Record} {phase : CallPhase}
    (hcalls : dispatch.calls = [flushAndClose phase]) :
    callRank dispatch = phaseRank dispatch.unclaimed.length (some phase) := by
  rw [callRank, Dispatch.call?, hcalls]
  rfl

theorem callRank_advance {dispatch : Dispatch Record} {phase : CallPhase}
    (hcalls : dispatch.calls = [flushAndClose phase])
    (hready : dispatch.canAdvance (flushAndClose phase) = true)
    (hlook : phase = .flushing → dispatch.queue.isEmpty = true) :
    callRank (dispatch.advance (flushAndClose phase)) < callRank dispatch := by
  rw [callRank_eq hcalls, callRank_eq (calls_advance hcalls hlook)]
  cases phase with
  | flushing =>
    rw [advance_flushing, if_pos (hlook rfl)]
    exact Nat.lt_succ_self _
  | stopping => exact Nat.lt_succ_self _
  | joining waited =>
    cases waited with
    | nil => exact Nat.lt_succ_self _
    | cons first rest => exact Nat.lt_succ_self _
  | closing => exact Nat.lt_succ_self _
  | finished => cases hready

/-- The worker takes a step, by what it does to the queue. -/
theorem rank_lt_of_work {new : Worker Record} (hworkers : after.dispatch.workers = [new])
    (hleft : after.left = session.left)
    (hcall : callRank after.dispatch = callRank session.dispatch)
    (hless : 3 * after.queue.items.length + after.queue.unsignalled + workerRank new <
      3 * session.queue.items.length + session.queue.unsignalled + workerRank session.worker) :
    after.rank < session.rank := by
  have hworker : after.worker = new := worker_eq hworkers
  rw [rank, rank, hleft, hcall, hworker]
  omega

/-- The call takes a step, and what is queued stays so. -/
theorem rank_lt_of_call (hworkers : after.dispatch.workers = session.dispatch.workers)
    (hleft : after.left = session.left) (hitems : after.queue.items = session.queue.items)
    (hunsignalled : after.queue.unsignalled = session.queue.unsignalled)
    (hcall : callRank after.dispatch < callRank session.dispatch) : after.rank < session.rank := by
  have hworker : after.worker = session.worker := by
    rw [worker, Dispatch.worker, hworkers]
    rfl
  rw [rank, rank, hleft, hitems, hunsignalled, hworker]
  omega

theorem rank_lt (h : session.Manned) (hlook : session.looks actor = false)
    (hturn : session.Turn receiver actor after) : after.rank < session.rank := by
  cases hturn with
  | store record rest hleft =>
    change 5 * rest.length + 3 * (session.queue.items ++ [record]).length +
      (session.queue.unsignalled + 1) + workerRank session.worker + callRank session.dispatch < _
    rw [rank, hleft, List.length_append, List.length_singleton, List.length_cons]
    omega
  | signal hpending =>
    have hitems : session.queue.signal.items = session.queue.items := Queue.items_addPermit _
    have hless : session.queue.signal.unsignalled = session.queue.unsignalled - 1 :=
      Queue.unsignalled_addPermit _
    change 5 * session.left.length + 3 * session.queue.signal.items.length +
      session.queue.signal.unsignalled + workerRank session.worker + callRank session.dispatch < _
    rw [rank, hitems, hless]
    omega
  | begin hleft hcalls =>
    refine rank_lt_of_call rfl rfl rfl rfl ?_
    rw [callRank_eq (calls_begin hcalls), callRank, Dispatch.call?, hcalls]
    exact Nat.lt_succ_self _
  | ask hidle =>
    refine rank_lt_of_work (workers_setWorker h.workers_eq .asking) rfl rfl ?_
    change 3 * (session.queue.ask 0).items.length + (session.queue.ask 0).unsignalled + 1 < _
    rw [Queue.items_ask, Queue.unsignalled_ask, hidle]
    exact Nat.lt_succ_self _
  | start record rest hasking hready hitems =>
    rw [Dispatch.take_of_front hitems]
    refine rank_lt_of_work (workers_setWorker h.workers_eq (.sending record)) rfl rfl ?_
    change 3 * session.queue.items.tail.length + session.queue.unsignalled + 3 < _
    rw [hitems, hasking]
    simp only [List.tail_cons, List.length_cons, workerRank]
    omega
  | stop hasking hready hitems =>
    rw [Dispatch.take_of_empty hitems]
    refine rank_lt_of_work (workers_setWorker h.workers_eq .stopped) rfl rfl ?_
    change 3 * session.queue.items.tail.length + session.queue.unsignalled + 0 < _
    rw [hitems, hasking]
    exact Nat.lt_succ_self _
  | settle record hsending =>
    rw [Dispatch.settle_eq]
    refine rank_lt_of_work (workers_setWorker h.workers_eq .idle) rfl rfl ?_
    rw [hsending]
    exact Nat.lt_succ_self _
  | advance call hcall hready hphase =>
    obtain ⟨phase, rfl, hcalls⟩ := h.calls_eq hcall
    obtain ⟨hworkers, hitems, hunsignalled, -⟩ :=
      session.dispatch.advance_keeps (flushAndClose phase)
    refine rank_lt_of_call hworkers rfl hitems hunsignalled (callRank_advance hcalls hready ?_)
    rintro rfl
    change session.queue.isEmpty = true
    simpa [looks, hcalls, flushAndClose] using hlook
  | close call hcall hphase =>
    obtain ⟨rfl, hcalls, -⟩ := h.drained_of_closing hcall hphase
    exact rank_lt_of_call rfl rfl rfl rfl (callRank_advance hcalls rfl (by simp))

/-- A look changes nothing. -/
theorem eq_of_looks (h : session.Manned) (hlook : session.looks actor = true)
    (hturn : session.Turn receiver actor after) : after = session := by
  simp only [looks, Bool.and_eq_true, decide_eq_true_eq, Bool.not_eq_true'] at hlook
  obtain ⟨⟨rfl, hpending⟩, hflushing⟩ := hlook
  cases hturn with
  | advance call hcall hready hphase =>
    obtain ⟨phase, rfl, hcalls⟩ := h.calls_eq hcall
    rw [hcalls] at hflushing
    obtain rfl : phase = .flushing := by simpa [flushAndClose] using hflushing
    have hnonempty : ¬ session.dispatch.queue.isEmpty = true := Bool.eq_false_iff.mp hpending
    rw [advance_flushing, if_neg hnonempty]
  | close call hcall hphase =>
    obtain ⟨rfl, hcalls, -⟩ := h.drained_of_closing hcall hphase
    rw [hcalls] at hflushing
    cases hflushing

theorem exists_step? {action : Dispatch.Step Record} {dispatch : Dispatch Record}
    (haction : session.action? receiver actor = some action)
    (hdispatch : session.dispatch.step? action = some dispatch) :
    ∃ after, session.step? receiver actor = some after := by
  unfold step?
  rw [haction]
  change ∃ after, ((session.dispatch.step? action).bind _) = some after
  rw [hdispatch]
  exact ⟨_, rfl⟩

/-- The producer goes on until every push is complete and the call has begun. -/
theorem exists_producer_step (hmore : session.queue.unsignalled ≠ 0 ∨ session.left ≠ [] ∨
    session.dispatch.calls = []) : ∃ after, session.step? receiver .producer = some after := by
  by_cases hpending : session.queue.unsignalled ≠ 0
  · have haction : session.action? receiver .producer = some .signal := if_pos hpending
    have hdispatch : session.dispatch.step? .signal = some _ := if_neg hpending
    exact exists_step? haction hdispatch
  cases hleft : session.left with
  | cons record rest =>
    have haction : session.action? receiver .producer = some (.store record) := by
      rw [action?, if_neg hpending, hleft]
    exact exists_step? haction rfl
  | nil =>
    have hcalls : session.dispatch.calls = [] := by
      rcases hmore with hsome | hsome | hnone
      · exact absurd hsome hpending
      · exact absurd hleft hsome
      · exact hnone
    have haction : session.action? receiver .producer = some (.begin 0 .flushAndClose) := by
      rw [action?, if_neg hpending, hleft]
      exact if_pos hcalls
    have hdispatch : session.dispatch.step? (.begin 0 .flushAndClose) =
        some (session.dispatch.begin 0 .flushAndClose) := by
      rw [Dispatch.step?, Dispatch.call?, hcalls]
      rfl
    exact exists_step? haction hdispatch

/-- A worker that is there goes on unless it waits for a permit. -/
theorem exists_worker_step (hlive : session.worker.hasExited = false)
    (hready : session.worker = .asking → session.queue.isReady 0 = true) :
    ∃ after, session.step? receiver .worker = some after := by
  cases hworker : session.worker with
  | idle =>
    have haction : session.action? receiver .worker = some (.ask 0) := by rw [action?, hworker]
    have hdispatch : session.dispatch.step? (.ask 0) = some _ :=
      if_pos (congrArg Worker.isIdle hworker)
    exact exists_step? haction hdispatch
  | asking =>
    have haction : session.action? receiver .worker = some (.take 0) := by rw [action?, hworker]
    have hdispatch : session.dispatch.step? (.take 0) = some _ :=
      if_pos ((Bool.and_eq_true _ _).mpr ⟨congrArg Worker.isAsking hworker, hready hworker⟩)
    exact exists_step? haction hdispatch
  | sending record =>
    have haction : session.action? receiver .worker =
        some (.settle 0 (receiver.answer (messages session.contacts)).isOk) := by
      rw [action?, hworker]
    have hdispatch : session.dispatch.step?
        (.settle 0 (receiver.answer (messages session.contacts)).isOk) = some _ :=
      if_pos (congrArg Worker.isSending hworker)
    exact exists_step? haction hdispatch
  | stopped => rw [hworker] at hlive; cases hlive
  | broken => rw [hworker] at hlive; cases hlive

/-- The call goes on where its flush finds nothing and its worker has left. -/
theorem exists_closer_step {phase : CallPhase}
    (hcalls : session.dispatch.calls = [flushAndClose phase])
    (hready : session.dispatch.canAdvance (flushAndClose phase) = true)
    (hlook : phase = .flushing → session.queue.isEmpty = true) :
    session.looks .closer = false ∧ ∃ after, session.step? receiver .closer = some after := by
  have hcall : session.dispatch.call? 0 = some (flushAndClose phase) := by
    rw [Dispatch.call?, hcalls]
    rfl
  constructor
  · rw [looks, hcalls]
    by_cases hphase : phase = .flushing
    · simp [hlook hphase]
    · simp [flushAndClose, hphase]
  · have hdispatch : session.dispatch.step? (.advance 0) =
        some (session.dispatch.advance (flushAndClose phase)) := by
      simp only [Dispatch.step?, hcall, hready, if_true]
    exact exists_step? rfl hdispatch

/-- The worker waits for a permit: the queue is open and empty, once every push is complete. -/
theorem idle_of_waiting (h : session.Manned) (hasking : session.worker = .asking)
    (hwaits : session.queue.isReady 0 = false) (hcomplete : session.queue.unsignalled = 0) :
    session.queue.closed = false ∧ session.queue.items = [] := by
  have hcallers := h.attended
  rw [hasking] at hcallers
  have hready : 0 ∉ session.queue.granted ∧ 0 ∉ session.queue.refused := by
    simpa [Queue.isReady] using hwaits
  have honly (popper : Nat) (hmem : popper ∈ session.queue.callers) : popper = 0 :=
    List.mem_singleton.mp (hcallers.subset hmem)
  have hgranted : session.queue.granted = [] := by
    refine List.eq_nil_iff_forall_not_mem.mpr fun popper hmem ↦ ?_
    have hzero := honly popper (List.mem_append_right _ (List.mem_append_left _ hmem))
    exact hready.1 (hzero ▸ hmem)
  have hwaiting : session.queue.waiting ≠ [] := by
    have hmem : 0 ∈ session.queue.callers := hcallers.mem_iff.mpr List.mem_cons_self
    rcases List.mem_append.mp hmem with hfound | hother
    · exact List.ne_nil_of_mem hfound
    · rcases List.mem_append.mp hother with hfound | hfound
      · exact absurd hfound hready.1
      · exact absurd hfound hready.2
  have hopen : session.queue.closed = false :=
    Bool.eq_false_iff.mpr fun hclosed ↦ hwaiting (h.sound.prompt hclosed)
  have hbalanced := h.sound.balanced hopen
  have hpermits : session.queue.permits = 0 :=
    Decidable.byContradiction fun hsome ↦ hwaiting (hbalanced.waiting_eq hsome)
  have hitems := hbalanced.items_eq
  rw [hpermits, hgranted, hcomplete] at hitems
  exact ⟨hopen, List.eq_nil_of_length_eq_zero hitems⟩

/-- Until the end is reached somebody can take a step that is no look. -/
theorem exists_progress (h : session.Manned) (hover : session.isOver = false) :
    ∃ actor, session.looks actor = false ∧ ∃ after, session.step? receiver actor = some after := by
  by_cases hmore : session.queue.unsignalled ≠ 0 ∨ session.left ≠ [] ∨ session.dispatch.calls = []
  · exact ⟨.producer, rfl, exists_producer_step hmore⟩
  obtain ⟨hcomplete, hqueued⟩ := not_or.mp hmore
  have hbegun := (not_or.mp hqueued).2
  by_cases hwork : session.worker.hasExited = false ∧
      (session.worker = .asking → session.queue.isReady 0 = true)
  · exact ⟨.worker, rfl, exists_worker_step hwork.1 hwork.2⟩
  -- The producer has done its part, and the worker waits or has left: it is the call that goes on.
  refine ⟨.closer, ?_⟩
  have hwaits (hlive : session.worker.hasExited = false) :
      session.queue.closed = false ∧ session.queue.items = [] := by
    have hblocked := fun hready ↦ hwork ⟨hlive, hready⟩
    obtain ⟨hasking, hnot⟩ := Classical.not_imp.mp hblocked
    exact idle_of_waiting h hasking (Bool.eq_false_iff.mpr hnot) (Decidable.not_not.mp hcomplete)
  cases h.stage with
  | before hopen hlive hunclaimed hcalls =>
    rcases hcalls with hnone | ⟨-, hflushing | hstopping⟩
    · exact absurd hnone hbegun
    · exact exists_closer_step hflushing rfl fun _ ↦ List.isEmpty_iff.mpr (hwaits hlive).2
    · exact exists_closer_step hstopping rfl nofun
  | draining hclosed hleft hcalls hworker =>
    rcases hworker with hlive | ⟨hstopped, -⟩
    · rw [(hwaits hlive).1] at hclosed
      cases hclosed
    · exact exists_closer_step hcalls (congrArg Worker.hasExited hstopped) nofun
  | drained hclosed hleft hstopped hempty phase hstep hcalls =>
    rcases hstep with rfl | rfl | rfl
    · exact exists_closer_step hcalls rfl nofun
    · exact exists_closer_step hcalls rfl nofun
    · rw [isOver, hcalls] at hover
      cases hover

/-! ### Whole runs -/

section Runs

variable {settings : HookSettings} {hostname : String} {records : List Record} {first : Session}
  {history : List (Session × Actor)}

/-- The steps of a run that are no looks. -/
def steps (history : List (Session × Actor)) : List (Session × Actor) :=
  history.filter fun entry ↦ !entry.1.looks entry.2

theorem follows {hook : Hook} (hwaiting : hook.dispatch = none) (hmanned : first.Manned)
    (htracks : first.Tracks receiver hook records [])
    (run : Run (step? receiver) first history session) :
    session.Manned ∧ (∃ done, session.Tracks receiver hook records done) ∧
      (steps history).length + session.rank ≤ first.rank := by
  induction run with
  | start => exact ⟨hmanned, ⟨[], htracks⟩, Nat.le_of_eq (Nat.zero_add _)⟩
  | @step history before after actor run possible ih =>
    obtain ⟨hbefore, ⟨done, hdone⟩, hbound⟩ := ih
    have hturn := turn_of_step? possible
    refine ⟨hbefore.turn hturn, hdone.turn hwaiting hbefore hturn, ?_⟩
    rw [steps, List.filter_append, List.length_append, ← steps]
    cases hlook : before.looks actor with
    | true =>
      rw [eq_of_looks hbefore hlook hturn]
      simpa [hlook] using hbound
    | false =>
      have hless := rank_lt hbefore hlook hturn
      simp only [hlook, List.filter_cons_of_pos, Bool.not_false, List.filter_nil, List.length_cons,
        List.length_nil]
      omega

/-- A session does what a waiting hook does. -/
structure Refines (receiver : Receiver) (waited : Line) (records : List Record)
    (history : List (Session × Actor)) (session : Session) : Prop where
  /-- A waiting hook sends its records in their order and closes the transport once. -/
  shape : waited.contacts = records.map (contactOf waited.hook.encoder) ++ [.close]
  /-- At any time the transport has received a part of this. -/
  sofar : session.contacts <+: waited.contacts
  contacts : session.isOver = true → session.contacts = waited.contacts
  counts : session.isOver = true →
    session.dispatch.delivered = waited.delivered ∧ session.dispatch.failed = waited.failed
  ending : session.isOver = true → session.ending = waited.ending
  drained : session.isOver = true →
    session.worker = .stopped ∧ session.queue.items = [] ∧ session.left = []
  /-- Looks aside, a session takes so many steps at most. -/
  bounded : (steps history).length ≤ 5 * records.length + 8
  idle : ∀ actor after, session.looks actor = true → session.step? receiver actor = some after →
    after = session
  /-- It does not get stuck. -/
  goesOn : session.isOver = false → ∃ actor, session.looks actor = false ∧
    ∃ after, session.step? receiver actor = some after

/-- Assumes: a hook with at most one worker that does not wait. In every order of the steps of the
producer, the worker and the close the transport receives what it does from a waiting hook. -/
theorem refines_of_run (hworkers : settings.workers ≤ 1)
    (hopen : ofHook? (.ofSettings { settings with synchronous := false } hostname) records =
      some first)
    (run : Run (step? receiver) first history session) :
    Refines receiver (waited receiver settings hostname records) records history session := by
  let hook : Hook := .ofSettings { settings with synchronous := true } hostname
  have hwaiting : hook.dispatch = none := rfl
  obtain rfl : fresh hook.encoder (.start settings.workers) records = first :=
    Option.some.inj hopen
  obtain ⟨hmanned, ⟨done, htracks⟩, hbound⟩ := follows hwaiting
    (.start hworkers hook.encoder records) (.start hworkers hook records) run
  have hencoder : (waited receiver settings hostname records).hook = hook :=
    hook_fireAll hwaiting records
  have hshape : (waited receiver settings hostname records).contacts =
      records.map (contactOf hook.encoder) ++ [.close] :=
    congrArg (· ++ [Contact.close]) (contacts_fireAll hwaiting records)
  have hrecords := htracks.records_eq
  have hdone (hover : session.isOver = true) : done = records := by
    obtain ⟨hstopped, hempty, hleft⟩ := hmanned.of_isOver hover
    rw [inHand, hstopped, hempty, hleft] at hrecords
    exact (List.append_nil done).symm.trans hrecords
  rw [rank_start hworkers] at hbound
  refine ⟨hencoder ▸ hshape, ?_, fun hover ↦ ?_, fun hover ↦ ?_, fun hover ↦ ?_,
    fun hover ↦ hmanned.of_isOver hover, Nat.le_of_add_right_le hbound,
    fun actor after hlook hstep ↦ eq_of_looks hmanned hlook (turn_of_step? hstep),
    fun hover ↦ exists_progress hmanned hover⟩
  · cases hover : session.isOver with
    | true =>
      rw [(htracks.finished hover).1, hdone hover]
      exact List.prefix_rfl
    | false =>
      obtain ⟨hcontacts, -⟩ := htracks.unfinished hover
      rw [hcontacts, contacts_fireAll hwaiting, hshape, ← hrecords, ← List.append_assoc done,
        List.map_append, List.map_append, List.append_assoc]
      exact List.prefix_append _ _
  · rw [(htracks.finished hover).1, hdone hover]
    rfl
  · rw [htracks.delivered_eq, htracks.failed_eq, hdone hover]
    exact ⟨rfl, rfl⟩
  · rw [(htracks.finished hover).2, hdone hover]
    rfl

/-- A transport that refuses the second message. -/
def refusesSecond : Receiver where
  answer messages := if messages.length = 2 then .error .closed else .ok ()
  closing _ := .ok ()

/-- The worker waits for the first record and sends while others are queued, and the flush looks
twice before nothing is pending. The worker still sends when the queue is closed. -/
def wovenSteps : List Actor :=
  [.producer, .worker, .producer, .producer, .worker, .producer, .producer, .worker, .producer,
    .producer, .closer, .worker, .worker, .closer, .worker, .worker, .worker, .closer, .closer,
    .worker, .worker, .worker, .closer, .closer, .closer]

theorem refines_of_wovenSteps :
    ∃ (settings : HookSettings) (records : List Record) (first session : Session)
      (history : List (Session × Actor)),
      settings.workers ≤ 1 ∧
      ofHook? (.ofSettings { settings with synchronous := false } "h") records = some first ∧
      Run (step? refusesSecond) first history session ∧ session.isOver = true ∧
      session.dispatch.delivered = 2 ∧ session.dispatch.failed = 1 ∧
      Refines refusesSecond (waited refusesSecond settings "h" records) records history
        session := by
  let settings : HookSettings := { workers := 0 }
  let records : List Record := ["a", "b", "c"].map fun message ↦ { level := .info, message }
  let first : Session := .fresh ⟨"h", .empty⟩ (.start 0) records
  have hfollow : (Run.follow? (step? refusesSecond) first wovenSteps).map (fun taken ↦
      (taken.2.isOver, taken.2.dispatch.delivered, taken.2.dispatch.failed)) =
      some (true, 2, 1) := by
    decide
  obtain ⟨⟨history, session⟩, htaken, hseen⟩ := Option.map_eq_some_iff.mp hfollow
  simp only [Prod.mk.injEq] at hseen
  obtain ⟨hover, hdelivered, hfailed⟩ := hseen
  have run := Run.of_follow? htaken
  exact ⟨settings, records, first, session, history, Nat.zero_le 1, rfl, run, hover, hdelivered,
    hfailed, refines_of_run (Nat.zero_le 1) rfl run⟩

end Runs

end Session

end GelfCourier.Hook
