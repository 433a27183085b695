import GelfCourier.Proofs.Datagram.Chunks
import GelfCourier.Proofs.Datagram.Turns
import GelfCourier.Proofs.Run

/-!
What sends write on the socket. A send writes its datagrams in order and without another's between
them, it succeeds just if all of them were written whole, and it never fails unseen. After a close
nothing is written again.
-/

set_option autoImplicit false

namespace GelfCourier.Datagram

/-- An empty payload is a datagram, too. -/
theorem ne_nil_of_split {id : Id} {payload : Bytes} {datagrams : List Bytes}
    (hsplit : split id payload = .ok datagrams) : datagrams ≠ [] := by
  have hpositive := count_pos payload.length
  rw [← length_of_split hsplit] at hpositive
  exact List.ne_nil_of_length_pos hpositive

namespace Transport

variable {transport after : Transport} {task next : Task} {step : Step} {number : Nat}

/-! ### What each send has written -/

/-- The writes of one task, in order. -/
def writesOf (number : Nat) (writes : List Write) : List Write :=
  writes.filter fun write ↦ write.task = number

/-- How far a task has come, with what it has written. -/
inductive Progress (task : Task) : List Write → Prop where
  | idle (hphase : task.phase = .asking) : Progress task []
  | writing (datagrams left : List Bytes) (writes : List Write)
      (hphase : task.phase = .writing left) (hpurpose : task.purpose = .send datagrams)
      (hwhole : ∀ write ∈ writes, write.isWhole = true)
      (hdatagrams : writes.map Write.datagram ++ left = datagrams) : Progress task writes
  | sent (datagrams : List Bytes) (writes : List Write) (hphase : task.phase = .finished (.ok ()))
      (hpurpose : task.purpose = .send datagrams) (hwhole : ∀ write ∈ writes, write.isWhole = true)
      (hdatagrams : writes.map Write.datagram = datagrams) : Progress task writes
  | shut (hphase : task.phase = .finished (.ok ())) (hpurpose : task.purpose = .close) :
      Progress task []
  | refused (fault : TransportFault) (hphase : task.phase = .finished (.error fault)) :
      Progress task []
  | stopped (datagrams : List Bytes) (earlier : List Write) (last : Write) (fault : TransportFault)
      (hphase : task.phase = .finished (.error fault)) (hpurpose : task.purpose = .send datagrams)
      (hwhole : ∀ write ∈ earlier, write.isWhole = true) (hbroken : last.isWhole = false)
      (hdatagrams : (earlier ++ [last]).map Write.datagram <+: datagrams)
      (hfault : ¬ IsRefusal fault) :
      Progress task (earlier ++ [last])

/-- What has been written by the tasks of a transport. -/
structure Noted (writes : List Write) (transport : Transport) : Prop where
  locked : Locked transport
  log_eq : transport.log = (writes.filter Write.isWhole).map fun write ↦
    (write.task, write.datagram)
  fresh : ∀ number, transport.task? number = none → writesOf number writes = []
  progress : ∀ number task, transport.task? number = some task →
    Progress task (writesOf number writes)
  contiguous : ∀ number, writesOf number writes <:+: writes
  /-- Who writes has made the last writes. -/
  last : ∀ number task, transport.task? number = some task → task.phase.isWriting = true →
    writesOf number writes <:+ writes

namespace Noted

variable {writes : List Write}

theorem start : Noted [] {} where
  locked := .start
  log_eq := rfl
  fresh := fun _ _ ↦ rfl
  progress := fun _ _ htask ↦ nomatch htask
  contiguous := fun _ ↦ List.infix_rfl
  last := fun _ _ htask ↦ nomatch htask

/-- A step without a write. -/
theorem quiet (h : Noted writes transport) (hlocked : Locked after)
    (hgoes : transport.Goes after number next) (hlog : after.log = transport.log)
    (hprogress : Progress next (writesOf number writes))
    (hlast : next.phase.isWriting = true → writesOf number writes = []) : Noted writes after := by
  refine ⟨hlocked, hlog.trans h.log_eq, fun other hnone ↦ ?_, fun other task htask ↦ ?_,
    h.contiguous, fun other task htask hwriting ↦ ?_⟩
  · rw [hgoes] at hnone
    split at hnone
    · cases hnone
    · exact h.fresh other hnone
  · rw [hgoes] at htask
    by_cases hother : other = number
    · rw [if_pos hother] at htask
      cases htask
      exact hother ▸ hprogress
    · rw [if_neg hother] at htask
      exact h.progress other task htask
  · rw [hgoes] at htask
    by_cases hother : other = number
    · rw [if_pos hother] at htask
      cases htask
      rw [hother, hlast hwriting]
      exact List.nil_suffix
    · rw [if_neg hother] at htask
      exact h.last other task htask hwriting

theorem writesOf_append (number : Nat) (earlier later : List Write) :
    writesOf number (earlier ++ later) = writesOf number earlier ++ writesOf number later :=
  List.filter_append _ _

/-- A write by the task that has the lock. -/
theorem written (h : Noted writes transport) (hlocked : Locked after)
    (htask : transport.task? number = some task) (hwriting : task.phase.isWriting = true)
    (hgoes : transport.Goes after number next) (write : Write) (hwriter : write.task = number)
    (hlog : after.log = transport.log ++
      if write.isWhole then [(write.task, write.datagram)] else [])
    (hprogress : Progress next (writesOf number writes ++ [write])) :
    Noted (writes ++ [write]) after := by
  have hself : writesOf number [write] = [write] := by simp [writesOf, hwriter]
  have hothers : ∀ other, other ≠ number → writesOf other (writes ++ [write]) =
      writesOf other writes := by
    intro other hother
    have hnone : writesOf other [write] = [] := by simp [writesOf, hwriter, Ne.symm hother]
    rw [writesOf_append, hnone, List.append_nil]
  have hsuffix : writesOf number (writes ++ [write]) <:+ writes ++ [write] := by
    obtain ⟨before, hbefore⟩ := h.last number task htask hwriting
    rw [writesOf_append, hself]
    exact ⟨before, by rw [← List.append_assoc, hbefore]⟩
  refine ⟨hlocked, ?_, fun other hnone ↦ ?_, fun other found hfound ↦ ?_, fun other ↦ ?_,
    fun other found hfound hbusy ↦ ?_⟩
  · rw [hlog, h.log_eq, List.filter_append, List.map_append]
    cases hwhole : write.isWhole <;> simp [hwhole]
  · rw [hgoes] at hnone
    split at hnone
    · cases hnone
    · next hother =>
      rw [hothers other hother]
      exact h.fresh other hnone
  · rw [hgoes] at hfound
    by_cases hother : other = number
    · rw [if_pos hother] at hfound
      cases hfound
      rw [hother, writesOf_append, hself]
      exact hprogress
    · rw [if_neg hother] at hfound
      rw [hothers other hother]
      exact h.progress other found hfound
  · by_cases hother : other = number
    · rw [hother]
      exact hsuffix.isInfix
    · rw [hothers other hother]
      exact (h.contiguous other).trans (List.prefix_append _ _).isInfix
  · rw [hgoes] at hfound
    by_cases hother : other = number
    · rw [hother]
      exact hsuffix
    · rw [if_neg hother] at hfound
      obtain ⟨hheld, -⟩ := h.locked.holder number task htask hwriting
      exact (hother (h.locked.eq_of_writing hheld hfound hbusy)).elim

/-- What a send has written when it is about to write on. -/
theorem progress_writing {left : List Bytes} (h : Noted writes transport)
    (htask : transport.task? number = some task) (hphase : task.phase = .writing left) :
    ∃ datagrams, task.purpose = .send datagrams ∧
      (∀ write ∈ writesOf number writes, write.isWhole = true) ∧
      (writesOf number writes).map Write.datagram ++ left = datagrams := by
  have hprogress := h.progress number task htask
  generalize writesOf number writes = own at hprogress
  cases hprogress with
  | writing datagrams left' writes hwriting hpurpose hwhole hdatagrams =>
    rw [hphase] at hwriting
    cases hwriting
    exact ⟨datagrams, hpurpose, hwhole, hdatagrams⟩
  | idle hother => rw [hphase] at hother; cases hother
  | sent datagrams writes hother => rw [hphase] at hother; cases hother
  | shut hother => rw [hphase] at hother; cases hother
  | refused fault hother => rw [hphase] at hother; cases hother
  | stopped datagrams earlier last fault hother => rw [hphase] at hother; cases hother

theorem progress_asking (h : Noted writes transport) (htask : transport.task? number = some task)
    (hphase : task.phase = .asking) : writesOf number writes = [] := by
  have hprogress := h.progress number task htask
  generalize writesOf number writes = own at hprogress
  cases hprogress with
  | idle hasking => rfl
  | shut hother => rfl
  | refused fault hother => rfl
  | writing datagrams left writes hother => rw [hphase] at hother; cases hother
  | sent datagrams writes hother => rw [hphase] at hother; cases hother
  | stopped datagrams earlier last fault hother => rw [hphase] at hother; cases hother

theorem moves (h : Noted writes transport) {write : Option Write}
    (hmoves : Moves transport write after) : Noted (writes ++ write.toList) after := by
  have hlocked := h.locked.moves hmoves
  cases hmoves with
  | begin number purpose hfresh =>
    have hgoes : transport.Goes (transport.begin number purpose) number { number, purpose } :=
      goes_add ⟨number, purpose, .asking⟩ hfresh rfl
    have hnone := h.fresh number hfresh
    rw [Option.toList_none, List.append_nil]
    exact h.quiet hlocked hgoes rfl (hnone ▸ .idle rfl) fun _ ↦ hnone
  | reject number needed hfresh =>
    have hgoes : transport.Goes (transport.reject number needed) number
        ⟨number, .send [], .finished (.error (.tooManyChunks needed))⟩ :=
      goes_add ⟨number, .send [], _⟩ hfresh rfl
    have hnone := h.fresh number hfresh
    rw [Option.toList_none, List.append_nil]
    exact h.quiet hlocked hgoes rfl (hnone ▸ .refused _ rfl) fun _ ↦ hnone
  | shut task htask hphase hheld hpurpose =>
    have hnone := h.progress_asking htask hphase
    rw [Option.toList_none, List.append_nil]
    exact h.quiet hlocked (goes_setPhase htask _) rfl (hnone ▸ .shut rfl hpurpose) fun _ ↦ hnone
  | enter task datagrams htask hphase hheld hpurpose hopen =>
    have hnone := h.progress_asking htask hphase
    have hprogress : Progress { task with phase := .writing datagrams } [] :=
      .writing datagrams datagrams [] rfl hpurpose (fun _ hmem ↦ nomatch hmem) rfl
    rw [Option.toList_none, List.append_nil]
    exact h.quiet hlocked (goes_setPhase htask _) rfl (hnone ▸ hprogress) fun _ ↦ hnone
  | refuse task datagrams htask hphase hheld hpurpose hshut =>
    have hnone := h.progress_asking htask hphase
    rw [Option.toList_none, List.append_nil]
    exact h.quiet hlocked (goes_setPhase htask _) rfl (hnone ▸ .refused _ rfl) fun _ ↦ hnone
  | succeed task htask hphase =>
    obtain ⟨datagrams, hpurpose, hwhole, hdatagrams⟩ := h.progress_writing htask hphase
    rw [List.append_nil] at hdatagrams
    rw [Option.toList_none, List.append_nil]
    exact h.quiet hlocked (goes_setPhase htask _) rfl
      (.sent datagrams _ rfl hpurpose hwhole hdatagrams) fun hwriting ↦ nomatch hwriting
  | write task datagram rest htask hphase =>
    obtain ⟨datagrams, hpurpose, hwhole, hdatagrams⟩ := h.progress_writing htask hphase
    have hnext : ∀ write ∈ writesOf task.number writes ++ [⟨task.number, datagram, .whole⟩],
        write.isWhole = true := by
      intro write hwrite
      rcases List.mem_append.mp hwrite with hold | hnew
      · exact hwhole write hold
      · rw [List.mem_singleton.mp hnew]
        rfl
    exact h.written hlocked htask (by rw [hphase]; rfl) (goes_setPhase htask _) _ rfl rfl
      (.writing datagrams rest _ rfl hpurpose hnext (by simp [← hdatagrams]))
  | fail task datagram rest write fault htask hphase hwriter hdatagram hbroken hfault =>
    obtain ⟨datagrams, hpurpose, hwhole, hdatagrams⟩ := h.progress_writing htask hphase
    have hinitial : (writesOf task.number writes ++ [write]).map Write.datagram <+: datagrams :=
      ⟨rest, by simp [← hdatagrams, hdatagram]⟩
    refine h.written hlocked htask (by rw [hphase]; rfl) (goes_setPhase htask _) write hwriter ?_
      (.stopped datagrams _ write fault rfl hpurpose hwhole hbroken hinitial hfault)
    rw [hbroken]
    exact (List.append_nil _).symm

end Noted

/-! ### Whole runs -/

def writes (history : List (Transport × Step)) : List Write :=
  Run.observed write? history

section Runs

variable {history : List (Transport × Step)}

theorem noted (run : Run step? {} history transport) : Noted (writes history) transport := by
  induction run with
  | start => exact .start
  | step run possible ih =>
    rw [writes, Run.observed_append_singleton]
    exact ih.moves (moves_of_step? possible)

/-- A step changes one task, which is new or not over yet. -/
theorem Moves.goes {write : Option Write} (hmoves : Moves transport write after) :
    ∃ number next, transport.Goes after number next ∧ (transport.task? number = none ∨
      ∃ old, transport.task? number = some old ∧ old.phase.isFinished = false ∧
        next.purpose = old.purpose) := by
  cases hmoves with
  | begin number purpose hfresh =>
    exact ⟨number, _, goes_add ⟨number, purpose, .asking⟩ hfresh rfl, .inl hfresh⟩
  | reject number needed hfresh =>
    exact ⟨number, _, goes_add ⟨number, .send [], _⟩ hfresh rfl, .inl hfresh⟩
  | shut task htask hphase =>
    exact ⟨_, _, goes_setPhase htask _, .inr ⟨task, htask, by rw [hphase]; rfl, rfl⟩⟩
  | enter task datagrams htask hphase =>
    exact ⟨_, _, goes_setPhase htask _, .inr ⟨task, htask, by rw [hphase]; rfl, rfl⟩⟩
  | refuse task datagrams htask hphase =>
    exact ⟨_, _, goes_setPhase htask _, .inr ⟨task, htask, by rw [hphase]; rfl, rfl⟩⟩
  | succeed task htask hphase =>
    exact ⟨_, _, goes_setPhase htask _, .inr ⟨task, htask, by rw [hphase]; rfl, rfl⟩⟩
  | write task datagram rest htask hphase =>
    exact ⟨_, _, goes_setPhase htask _, .inr ⟨task, htask, by rw [hphase]; rfl, rfl⟩⟩
  | fail task datagram rest write fault htask hphase =>
    exact ⟨_, _, goes_setPhase htask _, .inr ⟨task, htask, by rw [hphase]; rfl, rfl⟩⟩

/-- A task keeps its purpose, and one that is over stays as it is. -/
theorem kept_of_step? (possible : transport.step? step = some after)
    (htask : transport.task? number = some task) :
    ∃ next, after.task? number = some next ∧ next.purpose = task.purpose ∧
      (task.phase.isFinished = true → next = task) := by
  obtain ⟨changed, next, hgoes, hchanged⟩ := (moves_of_step? possible).goes
  by_cases hnumber : number = changed
  · rcases hchanged with hfresh | ⟨old, hold, hlive, hpurpose⟩
    · rw [← hnumber, htask] at hfresh
      cases hfresh
    · rw [← hnumber, htask] at hold
      cases hold
      refine ⟨next, by rw [hgoes, if_pos hnumber], hpurpose, fun hover ↦ ?_⟩
      rw [hlive] at hover
      cases hover
  · exact ⟨task, by rw [hgoes, if_neg hnumber, htask], rfl, fun _ ↦ rfl⟩

/-- What became of the payload of a send: cut into datagrams, or refused. -/
def IsFor (cut : Except Nat (List Bytes)) (task : Task) : Prop :=
  match cut with
  | .ok datagrams => task.purpose = .send datagrams
  | .error needed => task.purpose = .send [] ∧
      task.phase = .finished (.error (.tooManyChunks needed))

theorem task_of_send (run : Run step? {} history transport) {before : Transport} {id : Id}
    {payload : Bytes} (hsend : (before, .send number id payload) ∈ history) :
    ∃ task, transport.task? number = some task ∧ IsFor (split id payload) task := by
  induction run with
  | start => cases hsend
  | @step history last after step run possible ih =>
    rcases List.mem_append.mp hsend with hold | hnew
    · obtain ⟨task, htask, hfor⟩ := ih hold
      obtain ⟨next, hnext, hpurpose, hstays⟩ := kept_of_step? possible htask
      refine ⟨next, hnext, ?_⟩
      unfold IsFor at hfor ⊢
      split at hfor
      · exact hpurpose.trans hfor
      · rw [hstays (by rw [hfor.2]; rfl)]
        exact hfor
    · cases List.mem_singleton.mp hnew
      simp only [step?] at possible
      split at possible
      · cases possible
      · next hfresh =>
        have hfresh : before.task? number = none := by simpa using hfresh
        cases possible
        unfold beginSend
        cases hsplit : split id payload with
        | ok datagrams =>
          have hgoes : before.Goes (before.begin number (.send datagrams)) number
              ⟨number, .send datagrams, .asking⟩ := goes_add ⟨number, _, _⟩ hfresh rfl
          exact ⟨_, (hgoes number).trans (if_pos rfl), rfl⟩
        | error needed =>
          have hgoes : before.Goes (before.reject number needed) number
              ⟨number, .send [], .finished (.error (.tooManyChunks needed))⟩ :=
            goes_add ⟨number, _, _⟩ hfresh rfl
          exact ⟨_, (hgoes number).trans (if_pos rfl), rfl, rfl⟩

/-! ### After a close -/

/-- What happens between a close and a later state. -/
structure StaysShut (transport : Transport) (longer : List (Transport × Step))
    (later : Transport) : Prop where
  shut : later.isOpen = false
  silent : writes longer = []
  log_eq : later.log = transport.log
  /-- Sends that were not over are refused, and so are those that come later. -/
  failing : ∀ number task, later.task? number = some task → task.purpose ≠ .close →
    (transport.phase? number).any Phase.isFinished = false → ∀ result,
      task.phase = .finished result → ∃ fault, result = .error fault ∧ IsRefusal fault
  /-- One more close has nothing to do. -/
  again : ∀ number task next, later.task? number = some task → task.purpose = .close →
    later.step? (.enter number) = some next → next.isOpen = later.isOpen ∧ next.log = later.log ∧
      next.phase? number = some (.finished (.ok ())) ∧
      ∀ other, other ≠ number → next.task? other = later.task? other

theorem again_of_shut {next : Transport} (hshut : transport.isOpen = false)
    (htask : transport.task? number = some task) (hpurpose : task.purpose = .close)
    (possible : transport.step? (.enter number) = some next) :
    next.isOpen = transport.isOpen ∧ next.log = transport.log ∧
      next.phase? number = some (.finished (.ok ())) ∧
      ∀ other, other ≠ number → next.task? other = transport.task? other := by
  obtain rfl := number_of_task? htask
  have hgoes := goes_setPhase htask (.finished (.ok ()))
  simp only [step?, htask] at possible
  split at possible
  · split at possible
    · cases possible
      unfold enter
      rw [hpurpose]
      refine ⟨hshut.symm, rfl, ?_, fun other hother ↦ (hgoes other).trans (if_neg hother)⟩
      exact congrArg (Option.map Task.phase) ((hgoes task.number).trans (if_pos rfl))
    · cases possible
  · cases possible

/-- Nobody writes when the socket is gone. -/
theorem Locked.not_writing (h : Locked transport) (hshut : transport.isOpen = false)
    (htask : transport.task? number = some task) {left : List Bytes} :
    task.phase ≠ .writing left := by
  intro hphase
  have hopen := (h.holder number task htask (by rw [hphase]; rfl)).2.1
  rw [hshut] at hopen
  cases hopen

/-- A task of a later state that has not succeeded as a send. -/
def Fails (transport : Transport) (number : Nat) (task : Task) : Prop :=
  task.purpose ≠ .close →
    (transport.phase? number).any Phase.isFinished = true ∨ task.phase = .asking ∨
      ∃ fault, task.phase = .finished (.error fault) ∧ IsRefusal fault

theorem staysShut {longer : List (Transport × Step)} {later : Transport}
    (hlocked : Locked transport) (hshut : transport.isOpen = false)
    (run : Run step? transport longer later) :
    Locked later ∧ later.isOpen = false ∧ writes longer = [] ∧ later.log = transport.log ∧
      ∀ number task, later.task? number = some task → Fails transport number task := by
  induction run with
  | start =>
    refine ⟨hlocked, hshut, rfl, rfl, fun number task htask _ ↦ ?_⟩
    cases hphase : task.phase with
    | asking => exact .inr (.inl rfl)
    | writing left => exact (hlocked.not_writing hshut htask hphase).elim
    | finished result =>
      refine .inl ?_
      rw [phase?, htask, Option.map_some, hphase]
      rfl
  | @step longer before after step run possible ih =>
    obtain ⟨hbefore, hwas, hsilent, hlog, hfails⟩ := ih
    have hmoves := moves_of_step? possible
    have hafter := hbefore.moves hmoves
    rw [writes, Run.observed_append_singleton, ← writes, hsilent]
    have hchanged : ∀ changed next, before.Goes after changed next → Fails transport changed next →
        ∀ number task, after.task? number = some task → Fails transport number task := by
      intro changed next hgoes hnext number task htask
      rw [hgoes] at htask
      split at htask
      · next hnumber =>
        cases htask
        exact hnumber ▸ hnext
      · exact hfails number task htask
    generalize before.write? step = write at hmoves
    cases hmoves with
    | begin number purpose hfresh =>
      exact ⟨hafter, hwas, rfl, hlog, hchanged number _
        (goes_add ⟨number, purpose, .asking⟩ hfresh rfl) fun _ ↦ .inr (.inl rfl)⟩
    | reject number needed hfresh =>
      exact ⟨hafter, hwas, rfl, hlog, hchanged number _
        (goes_add ⟨number, .send [], _⟩ hfresh rfl)
        fun _ ↦ .inr (.inr ⟨_, rfl, .inr ⟨needed, rfl⟩⟩)⟩
    | shut task htask hphase hheld hpurpose =>
      exact ⟨hafter, rfl, rfl, hlog, hchanged _ _ (goes_setPhase htask _)
        fun hsends ↦ (hsends hpurpose).elim⟩
    | enter task datagrams htask hphase hheld hpurpose hopen =>
      rw [hwas] at hopen
      cases hopen
    | refuse task datagrams htask hphase hheld hpurpose hclosed =>
      exact ⟨hafter, hwas, rfl, hlog, hchanged _ _ (goes_setPhase htask _)
        fun _ ↦ .inr (.inr ⟨_, rfl, .inl rfl⟩)⟩
    | succeed task htask hphase => exact (hbefore.not_writing hwas htask hphase).elim
    | write task datagram rest htask hphase => exact (hbefore.not_writing hwas htask hphase).elim
    | fail task datagram rest write fault htask hphase =>
      exact (hbefore.not_writing hwas htask hphase).elim

/-! ### Sends and closes -/

/-- What a send has written, and how it ends. -/
structure Sent (cut : Except Nat (List Bytes)) (own : List Write) (phase : Phase) : Prop where
  /-- Datagrams are written in order, from the first on. -/
  initial : ∀ datagrams, cut = .ok datagrams → own.map Write.datagram <+: datagrams
  /-- Only the last may be cut short or not be written at all. -/
  whole : ∀ write ∈ own.dropLast, write.isWhole = true
  ok_iff : ∀ result, phase = .finished result → (result = .ok () ↔
    ∃ datagrams, cut = .ok datagrams ∧ own.map Write.datagram = datagrams ∧
      ∀ write ∈ own, write.isWhole = true)
  /-- A send that is refused has written nothing. -/
  refused : ∀ fault, phase = .finished (.error fault) → IsRefusal fault → own = []
  rejected : ∀ needed, cut = .error needed → phase = .finished (.error (.tooManyChunks needed))

/-- What has been written in a run. -/
structure Written (history : List (Transport × Step)) (transport : Transport) : Prop where
  /-- The log is what was written whole, in order. -/
  log_eq : transport.log = ((writes history).filter Write.isWhole).map fun write ↦
    (write.task, write.datagram)
  /-- Nobody else writes between two writes of a task. -/
  contiguous : ∀ number, writesOf number (writes history) <:+: writes history
  logged : ∀ number, (transport.log.filter fun entry ↦ entry.1 = number) <:+: transport.log
  sends : ∀ before number id payload, (before, .send number id payload) ∈ history →
    ∃ task, transport.task? number = some task ∧
      Sent (split id payload) (writesOf number (writes history)) task.phase
  /-- A send with no datagram left succeeds, however its step ends. -/
  succeeds : ∀ number, transport.phase? number = some (.writing []) → ∀ ending, ∃ after,
    transport.step? (.wrote number ending) = some after ∧
      after.phase? number = some (.finished (.ok ()))
  closes : ∀ number task result, transport.task? number = some task → task.purpose = .close →
    task.phase = .finished result → ∀ longer later, Run step? transport longer later →
      StaysShut transport longer later

/-! What is asked of a send, for each way in which it can stand. -/

namespace Sent

variable {datagrams : List Bytes} {own : List Write} {phase : Phase}

theorem of_rejected (needed : Nat) :
    Sent (.error needed) [] (.finished (.error (.tooManyChunks needed))) where
  initial := nofun
  whole := nofun
  ok_iff := by
    rintro result ⟨⟩
    exact ⟨nofun, fun ⟨_, hcut, _⟩ ↦ nomatch hcut⟩
  refused := fun _ _ _ ↦ rfl
  rejected := by
    rintro other ⟨⟩
    rfl

theorem of_live (hlive : ∀ result, phase ≠ .finished result)
    (hinitial : own.map Write.datagram <+: datagrams)
    (hwhole : ∀ write ∈ own, write.isWhole = true) : Sent (.ok datagrams) own phase where
  initial := by
    rintro other ⟨⟩
    exact hinitial
  whole := fun write hwrite ↦ hwhole write (List.dropLast_subset _ hwrite)
  ok_iff := fun result hresult ↦ (hlive result hresult).elim
  refused := fun _ hfault ↦ (hlive _ hfault).elim
  rejected := nofun

theorem of_ok (hdatagrams : own.map Write.datagram = datagrams)
    (hwhole : ∀ write ∈ own, write.isWhole = true) :
    Sent (.ok datagrams) own (.finished (.ok ())) where
  initial := by
    rintro other ⟨⟩
    exact hdatagrams ▸ List.prefix_refl _
  whole := fun write hwrite ↦ hwhole write (List.dropLast_subset _ hwrite)
  ok_iff := by
    rintro result ⟨⟩
    exact iff_of_true rfl ⟨datagrams, rfl, hdatagrams, hwhole⟩
  refused := nofun
  rejected := nofun

/-- Assumes: a failed send that has not written everything. -/
theorem of_error {fault : TransportFault} (hinitial : own.map Write.datagram <+: datagrams)
    (hwhole : ∀ write ∈ own.dropLast, write.isWhole = true)
    (hshort : own.map Write.datagram = datagrams → ∃ write ∈ own, write.isWhole = false)
    (hrefused : IsRefusal fault → own = []) :
    Sent (.ok datagrams) own (.finished (.error fault)) where
  initial := by
    rintro other ⟨⟩
    exact hinitial
  whole := hwhole
  ok_iff := by
    rintro result ⟨⟩
    refine iff_of_false nofun ?_
    rintro ⟨other, ⟨⟩, hdatagrams, hall⟩
    obtain ⟨write, hwrite, hbroken⟩ := hshort hdatagrams
    rw [hall write hwrite] at hbroken
    cases hbroken
  refused := by
    rintro other ⟨⟩ hrefusal
    exact hrefused hrefusal
  rejected := nofun

end Sent

theorem sent_of_progress {id : Id} {payload : Bytes} {own : List Write}
    (hprogress : Progress task own) (hfor : IsFor (split id payload) task) :
    Sent (split id payload) own task.phase := by
  have hnonempty : ∀ datagrams, split id payload = .ok datagrams → datagrams ≠ [] :=
    fun _ ↦ ne_nil_of_split
  generalize split id payload = cut at hfor hnonempty ⊢
  cases cut with
  | error needed =>
    obtain ⟨-, hphase⟩ : task.purpose = .send [] ∧
      task.phase = .finished (.error (.tooManyChunks needed)) := hfor
    rw [hphase]
    cases hprogress with
    | refused fault hrefused => exact .of_rejected needed
    | stopped datagrams earlier last fault hstopped hpurpose hwhole hbroken hdatagrams hfault =>
      rw [hphase] at hstopped
      cases hstopped
      exact (hfault (.inr ⟨needed, rfl⟩)).elim
    | idle hother => rw [hphase] at hother; cases hother
    | writing datagrams left writes hother => rw [hphase] at hother; cases hother
    | sent datagrams writes hother => rw [hphase] at hother; cases hother
    | shut hother => rw [hphase] at hother; cases hother
  | ok datagrams =>
    have hpurpose : task.purpose = .send datagrams := hfor
    cases hprogress with
    | idle hphase =>
      rw [hphase]
      exact .of_live nofun List.nil_prefix nofun
    | writing sent left writes hphase hsent hwhole hdatagrams =>
      rw [hpurpose] at hsent
      cases hsent
      rw [hphase]
      exact .of_live nofun ⟨left, hdatagrams⟩ hwhole
    | sent sent writes hphase hsent hwhole hdatagrams =>
      rw [hpurpose] at hsent
      cases hsent
      rw [hphase]
      exact .of_ok hdatagrams hwhole
    | shut hphase hclose =>
      rw [hpurpose] at hclose
      cases hclose
    | refused fault hphase =>
      rw [hphase]
      exact .of_error List.nil_prefix nofun
        (fun hempty ↦ (hnonempty datagrams rfl hempty.symm).elim) fun _ ↦ rfl
    | stopped sent earlier last fault hphase hsent hwhole hbroken hdatagrams hfault =>
      rw [hpurpose] at hsent
      cases hsent
      rw [hphase]
      refine .of_error hdatagrams ?_ (fun _ ↦ ?_) fun hrefusal ↦ (hfault hrefusal).elim
      · rw [List.dropLast_concat]
        exact hwhole
      · exact ⟨last, List.mem_append_right _ List.mem_cons_self, hbroken⟩

/-- However sends and closes are interleaved and writes end, each send writes its datagrams in order
and in one piece, it succeeds just if all of them were written whole, and after a close nothing is
written and every send is refused. -/
theorem written_of_run (run : Run step? {} history transport) : Written history transport := by
  have hnoted := noted run
  refine ⟨hnoted.log_eq, hnoted.contiguous, fun number ↦ ?_, ?_, ?_, ?_⟩
  · -- The log of a task is made of its writes, and these lie together.
    have hown : (transport.log.filter fun entry ↦ entry.1 = number) =
        ((writesOf number (writes history)).filter Write.isWhole).map fun write ↦
          (write.task, write.datagram) := by
      rw [hnoted.log_eq, List.filter_map, writesOf, List.filter_filter, List.filter_filter]
      simp only [Function.comp_def, Bool.and_comm]
    rw [hown, hnoted.log_eq]
    exact ((hnoted.contiguous number).filter _).map _
  · intro before number id payload hsend
    obtain ⟨task, htask, hfor⟩ := task_of_send run hsend
    exact ⟨task, htask, sent_of_progress (hnoted.progress number task htask) hfor⟩
  · intro number hphase ending
    obtain ⟨task, htask, hwriting⟩ := Option.map_eq_some_iff.mp hphase
    obtain rfl := number_of_task? htask
    refine ⟨transport.finish task.number (.ok ()), ?_, ?_⟩
    · simp only [step?, htask, hwriting, wrote]
    · exact congrArg (Option.map Task.phase)
        ((goes_setPhase htask (.finished (.ok ())) task.number).trans (if_pos rfl))
  · intro number task result htask hpurpose hphase longer later hlonger
    have hshut := hnoted.locked.shut number task htask hpurpose (by rw [hphase]; rfl)
    obtain ⟨hlocked, hstill, hsilent, hlog, hfails⟩ := staysShut hnoted.locked hshut hlonger
    refine ⟨hstill, hsilent, hlog, fun other found hfound hsends hlive ended hended ↦ ?_,
      fun other found next hfound hclose possible ↦ again_of_shut hstill hfound hclose possible⟩
    rcases hfails other found hfound hsends with hover | hasking | ⟨fault, hfault, hrefusal⟩
    · rw [hlive] at hover
      cases hover
    · rw [hasking] at hended
      cases hended
    · rw [hfault] at hended
      cases hended
      exact ⟨fault, rfl, hrefusal⟩

/-- The first send fails at its second datagram, the next one succeeds, and the last comes too late
for the first of two closes. -/
def failingSteps (fault : IoFault) : List Step :=
  [.send 1 (Vector.replicate 8 0) (List.replicate 1500 7), .send 2 (Vector.replicate 8 1) [1],
    .close 3, .enter 1, .wrote 1 .whole, .send 4 (Vector.replicate 8 2) [2],
    .wrote 1 (.failed fault), .enter 2, .wrote 2 .whole, .wrote 2 .whole, .enter 3, .enter 4,
    .close 5, .enter 5]

theorem written_of_failingSteps : ∃ history transport,
    Run step? {} history transport ∧ (writes history).map Write.task = [1, 1, 2] ∧
      transport.log.map Prod.fst = [1, 2] ∧ transport.isOpen = false ∧
      transport.lock.holder = none ∧ Written history transport := by
  have hfollow : (Run.follow? step? {} (failingSteps ⟨.other, "broken"⟩)).map (fun taken ↦
      ((writes taken.1).map Write.task, taken.2.log.map Prod.fst, taken.2.isOpen,
        taken.2.lock.holder)) = some ([1, 1, 2], [1, 2], false, none) := by
    decide +kernel
  obtain ⟨⟨history, transport⟩, htaken, hseen⟩ := Option.map_eq_some_iff.mp hfollow
  simp only [Prod.mk.injEq] at hseen
  obtain ⟨hwrites, hlog, hshut, hfree⟩ := hseen
  have run := Run.of_follow? htaken
  exact ⟨history, transport, run, hwrites, hlog, hshut, hfree, written_of_run run⟩

end Runs

end Transport

end GelfCourier.Datagram
