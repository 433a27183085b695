import GelfCourier.Datagram.Sending
import GelfCourier.Proofs.Concurrent.LockQueue
import GelfCourier.Proofs.Concurrent.Numbered

/-!
Whose turn it is at the socket. One step begins a task, or it is one of the task that has the lock
(`Moves`). The tasks that are not over are those in the queue of the lock, and who writes has it
(`Locked`).
-/

set_option autoImplicit false

namespace GelfCourier.Datagram

/-- Whether a send that ends so has written nothing. -/
def IsRefusal (fault : TransportFault) : Prop :=
  fault = .closed ∨ ∃ needed, fault = .tooManyChunks needed

theorem not_isRefusal_io (fault : IoFault) : ¬ IsRefusal (.io fault) := by
  rintro (h | ⟨needed, h⟩) <;> cases h

theorem not_isRefusal_shortWrite (written expected : Nat) :
    ¬ IsRefusal (.shortWrite written expected) := by
  rintro (h | ⟨needed, h⟩) <;> cases h

namespace Phase

def isFinished : Phase → Bool
  | .finished _ => true
  | _ => false

def isWriting : Phase → Bool
  | .writing _ => true
  | _ => false

end Phase

namespace Transport

variable {transport after : Transport} {task next : Task} {step : Step} {number : Nat}

/-! ### What one step does -/

/-- The write of a datagram: by which task, and how it ends. -/
structure Write where
  task : Nat
  datagram : Bytes
  ending : WriteEnd

def Write.isWhole (write : Write) : Bool :=
  match write.ending with
  | .whole => true
  | _ => false

/-- The write that a step is, if it is one. -/
def write? (transport : Transport) : Step → Option Write
  | .wrote number ending =>
    match transport.phase? number with
    | some (.writing (datagram :: _)) => some ⟨number, datagram, ending⟩
    | _ => none
  | _ => none

/-- A task that was refused before it asked for the lock. -/
def reject (transport : Transport) (number needed : Nat) : Transport :=
  { transport with
    tasks := transport.tasks ++
      [⟨number, .send [], .finished (.error (.tooManyChunks needed))⟩] }

/-- One step, by what it does to the task that takes it. -/
inductive Moves (transport : Transport) : Option Write → Transport → Prop where
  | begin (number : Nat) (purpose : Purpose) (hfresh : transport.task? number = none) :
      Moves transport none (transport.begin number purpose)
  | reject (number needed : Nat) (hfresh : transport.task? number = none) :
      Moves transport none (transport.reject number needed)
  | shut (task : Task) (htask : transport.task? task.number = some task)
      (hphase : task.phase = .asking) (hheld : transport.lock.holder = some task.number)
      (hpurpose : task.purpose = .close) :
      Moves transport none ({ transport with isOpen := false }.finish task.number (.ok ()))
  | enter (task : Task) (datagrams : List Bytes)
      (htask : transport.task? task.number = some task) (hphase : task.phase = .asking)
      (hheld : transport.lock.holder = some task.number)
      (hpurpose : task.purpose = .send datagrams) (hopen : transport.isOpen = true) :
      Moves transport none (transport.setPhase task.number (.writing datagrams))
  | refuse (task : Task) (datagrams : List Bytes)
      (htask : transport.task? task.number = some task) (hphase : task.phase = .asking)
      (hheld : transport.lock.holder = some task.number)
      (hpurpose : task.purpose = .send datagrams) (hshut : transport.isOpen = false) :
      Moves transport none (transport.finish task.number (.error .closed))
  | succeed (task : Task) (htask : transport.task? task.number = some task)
      (hphase : task.phase = .writing []) :
      Moves transport none (transport.finish task.number (.ok ()))
  | write (task : Task) (datagram : Bytes) (rest : List Bytes)
      (htask : transport.task? task.number = some task)
      (hphase : task.phase = .writing (datagram :: rest)) :
      Moves transport (some ⟨task.number, datagram, .whole⟩)
        ({ transport with log := transport.log ++ [(task.number, datagram)] }.setPhase task.number
          (.writing rest))
  | fail (task : Task) (datagram : Bytes) (rest : List Bytes) (write : Write)
      (fault : TransportFault) (htask : transport.task? task.number = some task)
      (hphase : task.phase = .writing (datagram :: rest)) (hwriter : write.task = task.number)
      (hdatagram : write.datagram = datagram) (hbroken : write.isWhole = false)
      (hfault : ¬ IsRefusal fault) :
      Moves transport (some write) (transport.finish task.number (.error fault))

theorem number_of_task? (htask : transport.task? number = some task) : task.number = number := by
  have hfound := List.find?_some htask
  simpa using hfound

theorem moves_enter (htask : transport.task? task.number = some task)
    (hphase : task.phase = .asking) (hheld : transport.lock.isHeldBy task.number = true) :
    Moves transport none (transport.enter task) := by
  have hholder : transport.lock.holder = some task.number := by simpa [Lock.isHeldBy] using hheld
  unfold enter
  split
  · next hpurpose => exact .shut task htask hphase hholder hpurpose
  · next datagrams hpurpose =>
    split
    · next hopen => exact .enter task datagrams htask hphase hholder hpurpose hopen
    · next hshut =>
      exact .refuse task datagrams htask hphase hholder hpurpose (Bool.eq_false_iff.mpr hshut)

theorem moves_wrote {left : List Bytes} (htask : transport.task? task.number = some task)
    (hphase : task.phase = .writing left) (ending : WriteEnd) :
    Moves transport (transport.write? (.wrote task.number ending))
      (transport.wrote task.number left ending) := by
  have hseen : transport.phase? task.number = some (.writing left) := by
    rw [phase?, htask, Option.map_some, hphase]
  unfold wrote
  simp only [write?, hseen]
  cases left with
  | nil => exact .succeed task htask hphase
  | cons datagram rest =>
    cases ending with
    | whole => exact .write task datagram rest htask hphase
    | short written =>
      exact .fail task datagram rest _ _ htask hphase rfl rfl rfl (not_isRefusal_shortWrite _ _)
    | failed fault =>
      exact .fail task datagram rest _ _ htask hphase rfl rfl rfl (not_isRefusal_io _)

theorem moves_of_step? (h : transport.step? step = some after) :
    Moves transport (transport.write? step) after := by
  cases step with
  | send number id payload =>
    simp only [step?] at h
    split at h
    · cases h
    · next hfresh =>
      have hfresh : transport.task? number = none := by simpa using hfresh
      cases h
      unfold beginSend
      split
      · exact .begin number _ hfresh
      · exact .reject number _ hfresh
  | close number =>
    simp only [step?] at h
    split at h
    · cases h
    · next hfresh => cases h; exact .begin number _ (by simpa using hfresh)
  | enter number =>
    simp only [step?] at h
    split at h
    · next task htask =>
      split at h
      · next hphase =>
        split at h
        · next hheld =>
          cases h
          obtain rfl := number_of_task? htask
          exact moves_enter htask hphase hheld
        · cases h
      · cases h
    · cases h
  | wrote number ending =>
    simp only [step?] at h
    split at h
    · next task htask =>
      split at h
      · next left hphase =>
        cases h
        obtain rfl := number_of_task? htask
        exact moves_wrote htask hphase ending
      · cases h
    · cases h

/-! ### Finding tasks -/

/-- The phase of the task of this number changes, and nothing else. -/
def Goes (transport after : Transport) (number : Nat) (next : Task) : Prop :=
  ∀ other, after.task? other = if other = number then some next else transport.task? other

theorem goes_setPhase (htask : transport.task? task.number = some task) (phase : Phase) :
    transport.Goes (transport.setPhase task.number phase) task.number { task with phase } := by
  intro other
  have hupdate := Numbered.find?_map_update Task.number (fun old ↦ { old with phase }) task.number
    (fun _ hnumber ↦ hnumber) transport.tasks other
  have hfound : (transport.tasks.find? fun old ↦ old.number = task.number) = some task := htask
  rw [hfound] at hupdate
  exact hupdate

theorem goes_add (new : Task) (hfresh : transport.task? new.number = none)
    (htasks : after.tasks = transport.tasks ++ [new]) :
    transport.Goes after new.number new := by
  intro other
  unfold task?
  rw [htasks]
  exact Numbered.find?_append_singleton Task.number transport.tasks new other hfresh

/-! ### The lock -/

/-- Tasks that are not over are in the queue of the lock, each once. Who writes has the lock, and
the socket is there; where a close is over, it is not. -/
structure Locked (transport : Transport) : Prop where
  tidy : transport.lock.IsTidy
  nodup : transport.lock.queue.Nodup
  queued : ∀ number, number ∈ transport.lock.queue ↔
    ∃ task, transport.task? number = some task ∧ task.phase.isFinished = false
  holder : ∀ number task, transport.task? number = some task → task.phase.isWriting = true →
    transport.lock.holder = some number ∧ transport.isOpen = true ∧ task.purpose ≠ .close
  shut : ∀ number task, transport.task? number = some task → task.purpose = .close →
    task.phase.isFinished = true → transport.isOpen = false

namespace Locked

theorem start : Locked {} where
  tidy := fun _ ↦ rfl
  nodup := List.nodup_nil
  queued := fun _ ↦ ⟨fun hmem ↦ (List.not_mem_nil hmem).elim, fun ⟨_, htask, _⟩ ↦ nomatch htask⟩
  holder := fun _ _ htask ↦ nomatch htask
  shut := fun _ _ htask ↦ nomatch htask

/-- Who writes is alone with the lock. -/
theorem eq_of_writing (h : Locked transport) {other : Nat} {writer : Task}
    (hheld : transport.lock.holder = some number) (hwriter : transport.task? other = some writer)
    (hwriting : writer.phase.isWriting = true) : other = number := by
  have hholder := (h.holder other writer hwriter hwriting).1
  exact Option.some.inj (hholder.symm.trans hheld)

theorem not_mem_queue (h : Locked transport) (hfresh : transport.task? number = none) :
    number ∉ transport.lock.queue := by
  intro hmem
  obtain ⟨task, htask, -⟩ := (h.queued number).mp hmem
  rw [hfresh] at htask
  cases htask

theorem begin (h : Locked transport) (purpose : Purpose) (hfresh : transport.task? number = none) :
    Locked (transport.begin number purpose) := by
  have hgoes : transport.Goes (transport.begin number purpose) number { number, purpose } :=
    goes_add ⟨number, purpose, .asking⟩ hfresh rfl
  have hqueue : (transport.begin number purpose).lock.queue = transport.lock.queue ++ [number] :=
    Lock.queue_ask h.tidy number
  refine ⟨Lock.isTidy_ask _ _, ?_, fun other ↦ ?_, fun other task htask hwriting ↦ ?_,
    fun other task htask hpurpose hover ↦ ?_⟩
  · rw [hqueue, List.nodup_append]
    refine ⟨h.nodup, List.nodup_cons.mpr ⟨List.not_mem_nil, List.nodup_nil⟩, ?_⟩
    rintro old hold added hadded rfl
    exact h.not_mem_queue hfresh (List.mem_singleton.mp hadded ▸ hold)
  · rw [hqueue, List.mem_append, List.mem_singleton, hgoes, h.queued]
    by_cases hother : other = number
    · rw [if_pos hother]
      exact ⟨fun _ ↦ ⟨_, rfl, rfl⟩, fun _ ↦ .inr hother⟩
    · rw [if_neg hother]
      exact ⟨fun hold ↦ hold.resolve_right hother, .inl⟩
  · rw [hgoes] at htask
    by_cases hother : other = number
    · rw [if_pos hother] at htask
      cases htask
      cases hwriting
    · rw [if_neg hother] at htask
      obtain ⟨hholder, hopen⟩ := h.holder other task htask hwriting
      exact ⟨Lock.holder_ask hholder number, hopen⟩
  · rw [hgoes] at htask
    by_cases hother : other = number
    · rw [if_pos hother] at htask
      cases htask
      cases hover
    · rw [if_neg hother] at htask
      exact h.shut other task htask hpurpose hover

/-- A step that leaves the lock alone: nobody comes or goes in its queue. -/
theorem stay (h : Locked transport) (hgoes : transport.Goes after number next)
    (hlock : after.lock = transport.lock) (hopen : after.isOpen = transport.isOpen)
    (hlive : next.phase.isFinished = false ↔ number ∈ transport.lock.queue)
    (hwrites : next.phase.isWriting = true →
      transport.lock.holder = some number ∧ transport.isOpen = true ∧ next.purpose ≠ .close)
    (hpurpose : next.purpose = .close → next.phase.isFinished = false) : Locked after := by
  refine ⟨hlock ▸ h.tidy, hlock ▸ h.nodup, fun other ↦ ?_, fun other task htask hwriting ↦ ?_,
    fun other task htask hclose hover ↦ ?_⟩
  · rw [hlock, hgoes]
    by_cases hother : other = number
    · rw [if_pos hother, hother, ← hlive]
      exact ⟨fun h' ↦ ⟨next, rfl, h'⟩, fun ⟨task, htask, h'⟩ ↦ Option.some.inj htask ▸ h'⟩
    · rw [if_neg hother]
      exact h.queued other
  · rw [hlock, hopen]
    rw [hgoes] at htask
    by_cases hother : other = number
    · rw [if_pos hother] at htask
      cases htask
      exact hother ▸ hwrites hwriting
    · rw [if_neg hother] at htask
      exact h.holder other task htask hwriting
  · rw [hopen]
    rw [hgoes] at htask
    by_cases hother : other = number
    · rw [if_pos hother] at htask
      cases htask
      rw [hpurpose hclose] at hover
      cases hover
    · rw [if_neg hother] at htask
      exact h.shut other task htask hclose hover

/-- The task that has the lock is over, and passes it on. -/
theorem leave (h : Locked transport) (hgoes : transport.Goes after number next)
    (hheld : transport.lock.holder = some number) (hlock : after.lock = transport.lock.release)
    (hover : next.phase.isFinished = true) (hshut : transport.isOpen = false → after.isOpen = false)
    (hclose : next.purpose = .close → after.isOpen = false) : Locked after := by
  have hqueue : transport.lock.queue = number :: transport.lock.waiting := by
    rw [Lock.queue, hheld]
    rfl
  have hnodup := h.nodup
  rw [hqueue, List.nodup_cons] at hnodup
  have hleft : after.lock.queue = transport.lock.waiting := by
    rw [hlock]
    exact Lock.queue_release hqueue h.tidy
  have hidle : next.phase.isWriting = false := by
    cases hphase : next.phase <;> first | rfl | (rw [hphase] at hover; cases hover)
  refine ⟨hlock ▸ Lock.isTidy_release _, hleft ▸ hnodup.2, fun other ↦ ?_,
    fun other task htask hwriting ↦ ?_, fun other task htask hpurpose hended ↦ ?_⟩
  · rw [hleft, hgoes]
    by_cases hother : other = number
    · rw [if_pos hother, hother]
      refine ⟨fun hmem ↦ (hnodup.1 hmem).elim, fun ⟨task, htask, hlive⟩ ↦ ?_⟩
      cases htask
      rw [hover] at hlive
      cases hlive
    · rw [if_neg hother, ← h.queued, hqueue, List.mem_cons]
      exact ⟨.inr, fun hmem ↦ hmem.resolve_left hother⟩
  · rw [hgoes] at htask
    by_cases hother : other = number
    · rw [if_pos hother] at htask
      cases htask
      rw [hidle] at hwriting
      cases hwriting
    · rw [if_neg hother] at htask
      exact (hother (h.eq_of_writing hheld htask hwriting)).elim
  · rw [hgoes] at htask
    by_cases hother : other = number
    · rw [if_pos hother] at htask
      cases htask
      exact hclose hpurpose
    · rw [if_neg hother] at htask
      exact hshut (h.shut other task htask hpurpose hended)

theorem mem_queue (hheld : transport.lock.holder = some number) :
    number ∈ transport.lock.queue := by
  rw [Lock.queue, hheld]
  exact List.mem_cons_self

theorem moves (h : Locked transport) {write : Option Write}
    (hmoves : Moves transport write after) : Locked after := by
  cases hmoves with
  | begin number purpose hfresh => exact h.begin purpose hfresh
  | reject number needed hfresh =>
    have hgoes : transport.Goes (transport.reject number needed) number
        ⟨number, .send [], .finished (.error (.tooManyChunks needed))⟩ :=
      goes_add ⟨number, .send [], _⟩ hfresh rfl
    refine h.stay hgoes rfl rfl ⟨fun hlive ↦ ?_, fun hmem ↦ ?_⟩ (fun hwriting ↦ ?_) fun hclose ↦ ?_
    · cases hlive
    · exact (h.not_mem_queue hfresh hmem).elim
    · cases hwriting
    · cases hclose
  | shut task htask hphase hheld hpurpose =>
    exact h.leave (goes_setPhase htask _) hheld rfl rfl (fun _ ↦ rfl) fun _ ↦ rfl
  | enter task datagrams htask hphase hheld hpurpose hopen =>
    have hsends : ({ task with phase := .writing datagrams } : Task).purpose ≠ .close := by
      rw [hpurpose]
      exact Purpose.noConfusion
    exact h.stay (goes_setPhase htask _) rfl rfl ⟨fun _ ↦ mem_queue hheld, fun _ ↦ rfl⟩
      (fun _ ↦ ⟨hheld, hopen, hsends⟩) fun _ ↦ rfl
  | refuse task datagrams htask hphase hheld hpurpose hshut =>
    exact h.leave (goes_setPhase htask _) hheld rfl rfl id fun _ ↦ hshut
  | succeed task htask hphase =>
    obtain ⟨hheld, -, hsends⟩ := h.holder _ task htask (by rw [hphase]; rfl)
    exact h.leave (goes_setPhase htask _) hheld rfl rfl id fun hclose ↦ (hsends hclose).elim
  | write task datagram rest htask hphase =>
    obtain ⟨hheld, hopen, hsends⟩ := h.holder _ task htask (by rw [hphase]; rfl)
    exact h.stay (goes_setPhase htask _) rfl rfl ⟨fun _ ↦ mem_queue hheld, fun _ ↦ rfl⟩
      (fun _ ↦ ⟨hheld, hopen, hsends⟩) fun _ ↦ rfl
  | fail task datagram rest write fault htask hphase hwriter hdatagram hbroken hfault =>
    obtain ⟨hheld, -, hsends⟩ := h.holder _ task htask (by rw [hphase]; rfl)
    exact h.leave (goes_setPhase htask _) hheld rfl rfl id fun hclose ↦ (hsends hclose).elim

end Locked

end Transport

end GelfCourier.Datagram
