import Mathlib.Data.List.Basic
import GelfCourier.Proofs.Run
import GelfCourier.Proofs.Stream.Turns

/-!
Frames stay whole on every connection. However connections break and dials end, and however sends
and closes are interleaved, each connection has accepted complete frames and behind them at most a
part of one more; the complete frames are those of the sends that succeeded, each once, in the order
in which the sends got the lock.
-/

set_option autoImplicit false

namespace GelfCourier.Stream

namespace Transport

/-! ### Writes -/

namespace Write

/-- What the connection accepts. -/
def octets (write : Write) : Bytes :=
  match write.ending with
  | .whole => frame write.message
  | .broken written _ => (frame write.message).take written

def isWhole (write : Write) : Bool :=
  match write.ending with
  | .whole => true
  | .broken _ _ => false

/-- A write that breaks leaves at least one octet of its frame out. -/
def IsCut (write : Write) : Prop :=
  write.octets <+: frame write.message ∧ write.octets ≠ frame write.message

/-- Among these tasks is the one that writes, and the frame is of the message that it sends. -/
def IsSent (tasks : List Task) (write : Write) : Prop :=
  ∃ task ∈ tasks, task.number = write.task ∧ task.purpose = .send write.message

end Write

def writes (history : List (Transport × Step)) : List Write :=
  Run.observed write? history

/-- The writes on one connection, in order. -/
def writesOn (connection : Nat) (writes : List Write) : List Write :=
  writes.filter fun write ↦ write.connection = connection

/-- The tasks and messages of the complete frames. -/
def complete (writes : List Write) : List (Nat × Message) :=
  (writes.filter Write.isWhole).map fun write ↦ (write.task, write.message)

theorem isCut_of_broken {write : Write} {written : Nat} {fault : IoFault}
    (hending : write.ending = .broken written fault)
    (hwritten : written < (frame write.message).length) : write.IsCut := by
  have hoctets : write.octets = (frame write.message).take written := by
    rw [Write.octets, hending]
  unfold Write.IsCut
  rw [hoctets]
  refine ⟨List.take_prefix _ _, fun hsame ↦ ?_⟩
  have hlength := congrArg List.length hsame
  rw [List.length_take] at hlength
  omega

theorem octets_of_isWhole {write : Write} (hwhole : write.isWhole = true) :
    write.octets = frame write.message := by
  unfold Write.isWhole at hwhole
  unfold Write.octets
  cases hending : write.ending with
  | whole => rfl
  | broken written fault =>
    rw [hending] at hwhole
    cases hwhole

theorem writesOn_append (connection : Nat) (earlier later : List Write) :
    writesOn connection (earlier ++ later) =
      writesOn connection earlier ++ writesOn connection later :=
  List.filter_append _ _

theorem isWhole_of_mem_append {writes : List Write} (write : Write)
    (hwhole : ∀ old ∈ writesOn write.connection writes, old.isWhole = true)
    (hnew : write.isWhole = true) :
    ∀ other ∈ writesOn write.connection (writes ++ [write]), other.isWhole = true := by
  intro other hother
  rw [writesOn_append] at hother
  rcases List.mem_append.mp hother with hold | hadded
  · exact hwhole other hold
  · rw [List.mem_singleton.mp (List.mem_filter.mp hadded).1]
    exact hnew

theorem complete_append (earlier later : List Write) :
    complete (earlier ++ later) = complete earlier ++ complete later := by
  unfold complete
  rw [List.filter_append, List.map_append]

/-! ### What connections have accepted -/

/-- The writes account for all octets on the connections. Later writes are on later connections, and
only the last write on a connection may be cut. -/
structure Kept (writes : List Write) (accepted : List Bytes) : Prop where
  accepted_eq : ∀ connection octets, accepted[connection]? = some octets →
    octets = (writesOn connection writes).flatMap Write.octets
  below : ∀ write ∈ writes, write.connection < accepted.length
  ordered : writes.Pairwise fun earlier later ↦ earlier.connection ≤ later.connection
  cut : ∀ write ∈ writes, write.isWhole = true ∨ write.IsCut
  last : ∀ connection, ∀ write ∈ (writesOn connection writes).dropLast, write.isWhole = true

namespace Kept

variable {writes : List Write} {accepted : List Bytes} {write : Write}

theorem start : Kept [] [[]] where
  accepted_eq := by
    intro connection octets hoctets
    cases connection <;> cases hoctets
    rfl
  below := fun _ hmem ↦ nomatch hmem
  ordered := .nil
  cut := fun _ hmem ↦ nomatch hmem
  last := fun _ _ hmem ↦ nomatch hmem

theorem writesOn_eq_nil (h : Kept writes accepted) {connection : Nat}
    (hconnection : accepted.length ≤ connection) : writesOn connection writes = [] := by
  refine List.filter_eq_nil_iff.mpr fun write hwrite hsame ↦ ?_
  have hbelow := h.below write hwrite
  simp only [decide_eq_true_eq] at hsame
  omega

/-- A new connection has accepted nothing. -/
theorem dial (h : Kept writes accepted) : Kept writes (accepted ++ [[]]) where
  accepted_eq := by
    intro connection octets hoctets
    by_cases hold : connection < accepted.length
    · rw [List.getElem?_append_left hold] at hoctets
      exact h.accepted_eq connection octets hoctets
    · rw [List.getElem?_append_right (by omega)] at hoctets
      rw [h.writesOn_eq_nil (by omega)]
      cases hindex : connection - accepted.length <;> rw [hindex] at hoctets <;> cases hoctets
      rfl
  below := by
    intro write hwrite
    have hbelow := h.below write hwrite
    rw [List.length_append]
    omega
  ordered := h.ordered
  cut := h.cut
  last := h.last

/-- Assumes: a write on the newest connection, on which no write was cut. -/
theorem add (h : Kept writes accepted) (write : Write)
    (hnewest : write.connection + 1 = accepted.length)
    (hwhole : ∀ old ∈ writesOn write.connection writes, old.isWhole = true)
    (hcut : write.isWhole = true ∨ write.IsCut) :
    Kept (writes ++ [write]) (accepted.modify write.connection (· ++ write.octets)) where
  accepted_eq := by
    intro connection octets hoctets
    rw [writesOn_append, List.flatMap_append]
    rw [List.getElem?_modify] at hoctets
    obtain ⟨old, hold, hafter⟩ := Option.map_eq_some_iff.mp hoctets
    have hbefore := h.accepted_eq connection old hold
    by_cases hsame : write.connection = connection
    · rw [if_pos hsame] at hafter
      rw [← hafter, ← hbefore, writesOn, List.filter_cons, if_pos (by simpa using hsame)]
      simp
    · rw [if_neg hsame] at hafter
      rw [← hafter, ← hbefore, writesOn, List.filter_cons, if_neg (by simpa using hsame)]
      simp
  below := by
    intro other hother
    rw [List.length_modify]
    rcases List.mem_append.mp hother with hold | hnew
    · exact h.below other hold
    · rw [List.mem_singleton.mp hnew]
      omega
  ordered := by
    refine List.pairwise_append.mpr ⟨h.ordered, List.pairwise_singleton _ _, ?_⟩
    intro old hold new hnew
    have hbelow := h.below old hold
    rw [List.mem_singleton.mp hnew]
    omega
  cut := by
    intro other hother
    rcases List.mem_append.mp hother with hold | hnew
    · exact h.cut other hold
    · rw [List.mem_singleton.mp hnew]
      exact hcut
  last := by
    intro connection other hother
    rw [writesOn_append] at hother
    by_cases hsame : write.connection = connection
    · have hone : writesOn connection [write] = [write] := by simp [writesOn, hsame]
      rw [hone, List.dropLast_concat, ← hsame] at hother
      exact hwhole other hother
    · have hnone : writesOn connection [write] = [] := by simp [writesOn, hsame]
      rw [hnone, List.append_nil] at hother
      exact h.last connection other hother

/-- Only the last write on a connection may be cut, so the rest are complete frames. -/
theorem split (h : Kept writes accepted) (connection : Nat) :
    ∃ whole cut : List Write, writesOn connection writes = whole ++ cut ∧ cut.length ≤ 1 ∧
      (∀ write ∈ whole, write.isWhole = true) ∧ ∀ write ∈ cut, write.IsCut := by
  have hlast := h.last connection
  rcases List.eq_nil_or_concat' (writesOn connection writes) with hnone | ⟨earlier, final, hsome⟩
  · exact ⟨[], [], hnone, Nat.zero_le _, fun _ h' ↦ (nomatch h'), fun _ h' ↦ (nomatch h')⟩
  · rw [hsome, List.dropLast_concat] at hlast
    have hfinal : final ∈ writes := by
      have hmem : final ∈ writesOn connection writes := by
        rw [hsome]
        exact List.mem_append_right _ List.mem_cons_self
      exact (List.mem_filter.mp hmem).1
    rcases h.cut final hfinal with hwhole | hcut
    · refine ⟨earlier ++ [final], [], by rw [hsome, List.append_nil], Nat.zero_le _, ?_,
        fun _ h' ↦ nomatch h'⟩
      intro write hwrite
      rcases List.mem_append.mp hwrite with hearlier | hnew
      · exact hlast write hearlier
      · rw [List.mem_singleton.mp hnew]
        exact hwhole
    · refine ⟨earlier, [final], hsome, Nat.le_refl _, hlast, ?_⟩
      intro write hwrite
      rw [List.mem_singleton.mp hwrite]
      exact hcut

end Kept

/-! ### The slot and the task in front -/

/-- How the task in front stands to the connection in use. A send that looks for a new connection
has given the old one up, and nobody has written on the one it has dialled. -/
def Fits (writes : List Write) (slot : Option Nat) (accepted : List Bytes) : Phase → Prop
  | .asking => True
  | .writing connection => slot = some connection
  | .dialing _ => slot = none
  | .pausing _ => slot = none
  | .rewriting connection =>
    slot = none ∧ connection + 1 = accepted.length ∧ writesOn connection writes = []
  | .finished _ => True

theorem fits_of_isDialing {writes : List Write} {slot : Option Nat} {accepted : List Bytes}
    {phase : Phase} (hdialing : phase.isDialing = true) :
    Fits writes slot accepted phase ↔ slot = none := by
  cases phase <;> first | exact Iff.rfl | cases hdialing

/-- The connection in use is the newest, and no write on it was cut. -/
structure Carried (writes : List Write) (slot : Option Nat) (accepted : List Bytes)
    (phase : Phase) : Prop where
  kept : Kept writes accepted
  newest : ∀ connection, slot = some connection → connection + 1 = accepted.length ∧
    ∀ write ∈ writesOn connection writes, write.isWhole = true
  fits : Fits writes slot accepted phase

/-- The complete frame of a send that succeeded. -/
def delivered? (task : Task) : Option (Nat × Message) :=
  match task.purpose, task.phase with
  | .send message, .finished (.ok _) => some (task.number, message)
  | _, _ => none

theorem delivered?_error (task : Task) (fault : TransportFault) :
    [] = (delivered? { task with phase := .finished (.error fault) }).toList := by
  unfold delivered?
  cases task.purpose <;> rfl

/-- What a step of the task in front comes to: the task goes on, or it is over and has written a
complete frame just if it succeeded. -/
inductive Outcome (done rest : List Task) (task : Task) (writes : List Write)
    (write? : Option Write) (after : Transport) : Prop where
  | goesOn (phase : Phase) (hbusy : phase.isBusy = true)
      (hqueued : Queued after done ({ task with phase } :: rest))
      (hcarried : Carried (writes ++ write?.toList) after.slot after.accepted phase)
      (hcomplete : complete write?.toList = [])
  | leaves (result : Except TransportFault Unit)
      (hqueued : Queued after (done ++ [{ task with phase := .finished result }]) rest)
      (hcarried : Carried (writes ++ write?.toList) after.slot after.accepted .asking)
      (hcomplete : complete write?.toList =
        (delivered? { task with phase := .finished result }).toList)

namespace Moves

variable {transport after : Transport} {done rest : List Task} {task : Task} {writes : List Write}
  {write? : Option Write}

theorem outcome (hmoves : Moves transport task write? after)
    (hqueued : Queued transport done (task :: rest))
    (hcarried : Carried writes transport.slot transport.accepted task.phase) :
    Outcome done rest task writes write? after := by
  obtain ⟨hkept, hnewest, hfits⟩ := hcarried
  have hsame : writes ++ (none : Option Write).toList = writes := List.append_nil writes
  cases hmoves with
  | shut hphase hpurpose =>
    have hbetween : Queued { transport with slot := none } done (task :: rest) :=
      hqueued.congr rfl rfl
    refine .leaves (.ok ()) (hbetween.finish _) ?_ ?_
    · rw [hsame]
      exact ⟨hkept, fun _ h ↦ (nomatch h), trivial⟩
    · rw [delivered?, hpurpose]
      rfl
  | fail fault =>
    refine .leaves (.error fault) (hqueued.finish _) ?_ (delivered?_error task fault)
    rw [hsame]
    exact ⟨hkept, hnewest, trivial⟩
  | discard fault hphase =>
    have hslot := (fits_of_isDialing hphase).mp hfits
    have hbetween : Queued { transport with accepted := transport.accepted ++ [[]] } done
        (task :: rest) := hqueued.congr rfl rfl
    refine .leaves (.error fault) (hbetween.finish _) ?_ (delivered?_error task fault)
    rw [hsame]
    exact ⟨hkept.dial, fun _ h ↦ (nomatch hslot.symm.trans h), trivial⟩
  | write connection hphase hslot =>
    refine .goesOn (.writing connection) rfl (hqueued.setPhase rfl) ?_ rfl
    rw [hsame]
    exact ⟨hkept, hnewest, hslot⟩
  | dial hphase hslot =>
    refine .goesOn (.dialing 1) rfl (hqueued.setPhase rfl) ?_ rfl
    rw [hsame]
    exact ⟨hkept, hnewest, hslot⟩
  | wait phase hphase hnext =>
    have hslot := (fits_of_isDialing hphase).mp hfits
    have hbusy := Phase.isBusy_of_isDialing hnext
    refine .goesOn phase hbusy (hqueued.setPhase (Phase.isFinished_of_isBusy hbusy)) ?_ rfl
    rw [hsame]
    exact ⟨hkept, hnewest, (fits_of_isDialing hnext).mpr hslot⟩
  | connect hphase =>
    -- The new connection is the last of all, and nothing has been written on it.
    have hslot := (fits_of_isDialing hphase).mp hfits
    have hbetween : Queued { transport with accepted := transport.accepted ++ [[]] } done
        (task :: rest) := hqueued.congr rfl rfl
    have hgrown : transport.accepted.length + 1 = (transport.accepted ++ [[]]).length := by simp
    refine .goesOn (.rewriting transport.accepted.length) rfl (hbetween.setPhase rfl) ?_ rfl
    rw [hsame]
    exact ⟨hkept.dial, fun _ h ↦ (nomatch hslot.symm.trans h), hslot, hgrown,
      hkept.writesOn_eq_nil (Nat.le_refl _)⟩
  | wrote message connection hpurpose hphase =>
    rw [hphase] at hfits
    have hslot : transport.slot = some connection := hfits
    obtain ⟨hlast, hwhole⟩ := hnewest connection hslot
    have hbetween : Queued (transport.accept connection (frame message)) done (task :: rest) :=
      hqueued.congr rfl rfl
    have hadded := hkept.add ⟨task.number, message, connection, .whole⟩ hlast hwhole (.inl rfl)
    refine .leaves (.ok ()) (hbetween.finish _) ⟨hadded, ?_, trivial⟩ ?_
    · intro other hother
      obtain rfl : connection = other := Option.some.inj (hslot.symm.trans hother)
      exact ⟨hlast.trans (List.length_modify _ _ _).symm,
        isWhole_of_mem_append ⟨task.number, message, connection, .whole⟩ hwhole rfl⟩
    · rw [delivered?, hpurpose]
      rfl
  | broke message connection written fault hpurpose hphase hwritten =>
    -- A cut write empties the slot, so that it stays the last on its connection.
    rw [hphase] at hfits
    obtain ⟨hlast, hwhole⟩ := hnewest connection hfits
    have hbetween : Queued
        { transport.accept connection ((frame message).take written) with slot := none } done
        (task :: rest) := hqueued.congr rfl rfl
    have hadded := hkept.add ⟨task.number, message, connection, .broken written fault⟩ hlast hwhole
      (.inr (isCut_of_broken rfl hwritten))
    exact .goesOn (.dialing 1) rfl (hbetween.setPhase rfl) ⟨hadded, fun _ h ↦ (nomatch h), rfl⟩ rfl
  | rewrote message connection hpurpose hphase =>
    rw [hphase] at hfits
    obtain ⟨hslot, hlast, hnone⟩ := hfits
    have hwhole : ∀ old ∈ writesOn connection writes, old.isWhole = true := by
      rw [hnone]
      exact fun _ hmem ↦ nomatch hmem
    have hbetween : Queued
        { transport.accept connection (frame message) with slot := some connection } done
        (task :: rest) := hqueued.congr rfl rfl
    have hadded := hkept.add ⟨task.number, message, connection, .whole⟩ hlast hwhole (.inl rfl)
    refine .leaves (.ok ()) (hbetween.finish _) ⟨hadded, ?_, trivial⟩ ?_
    · rintro other ⟨⟩
      exact ⟨hlast.trans (List.length_modify _ _ _).symm,
        isWhole_of_mem_append ⟨task.number, message, connection, .whole⟩ hwhole rfl⟩
    · rw [delivered?, hpurpose]
      rfl
  | rebroke message connection written fault hpurpose hphase hwritten =>
    rw [hphase] at hfits
    obtain ⟨hslot, hlast, hnone⟩ := hfits
    have hwhole : ∀ old ∈ writesOn connection writes, old.isWhole = true := by
      rw [hnone]
      exact fun _ hmem ↦ nomatch hmem
    have hbetween : Queued (transport.accept connection ((frame message).take written)) done
        (task :: rest) := hqueued.congr rfl rfl
    have hadded := hkept.add ⟨task.number, message, connection, .broken written fault⟩ hlast hwhole
      (.inr (isCut_of_broken rfl hwritten))
    exact .leaves (.error (.io fault)) (hbetween.finish _)
      ⟨hadded, fun _ h ↦ (nomatch hslot.symm.trans h), trivial⟩ (delivered?_error task _)

/-- A write is of the frame of the message that its task sends. -/
theorem owned (hmoves : Moves transport task write? after) :
    ∀ write ∈ write?.toList, write.task = task.number ∧ task.purpose = .send write.message := by
  intro write hwrite
  cases hmoves with
  | wrote message connection hpurpose hphase =>
    rw [List.mem_singleton.mp hwrite]
    exact ⟨rfl, hpurpose⟩
  | broke message connection written fault hpurpose hphase hwritten =>
    rw [List.mem_singleton.mp hwrite]
    exact ⟨rfl, hpurpose⟩
  | rewrote message connection hpurpose hphase =>
    rw [List.mem_singleton.mp hwrite]
    exact ⟨rfl, hpurpose⟩
  | rebroke message connection written fault hpurpose hphase hwritten =>
    rw [List.mem_singleton.mp hwrite]
    exact ⟨rfl, hpurpose⟩
  | _ => cases hwrite

end Moves

/-! ### Whole runs -/

/-- Calls of sends and closes, in order. -/
def called (history : List (Transport × Step)) : List Nat :=
  Run.observed (fun _ step ↦ step.called?) history

/-- Sends and closes in the order in which they obtained the lock. -/
def entered (history : List (Transport × Step)) : List Nat :=
  Run.observed (fun _ step ↦ step.entered?) history

/-- The task in front, where it is at work. -/
def begun : List Task → List Nat
  | [] => []
  | task :: _ => if task.phase.isAsking then [] else [task.number]

def frontPhase : List Task → Phase
  | [] => .asking
  | task :: _ => task.phase

/-- How a run stands between two steps. -/
structure Standing (history : List (Transport × Step)) (transport : Transport)
    (done live : List Task) : Prop where
  queued : Queued transport done live
  carried : Carried (writes history) transport.slot transport.accepted (frontPhase live)
  sent : ∀ write ∈ writes history, write.IsSent transport.tasks
  complete_eq : complete (writes history) = done.filterMap delivered?
  called_eq : called history = transport.tasks.map Task.number
  entered_eq : entered history = done.map Task.number ++ begun live

section Runs

variable {transport after : Transport} {done live rest : List Task}
  {history : List (Transport × Step)} {step : Step} {task : Task}

theorem begun_eq_nil (hwaiting : ∀ task ∈ live, task.phase.isAsking = true) : begun live = [] := by
  cases live with
  | nil => rfl
  | cons task rest => rw [begun, if_pos (hwaiting task List.mem_cons_self)]

theorem begun_isPrefix (live : List Task) : begun live <+: live.map Task.number := by
  cases live with
  | nil => exact List.prefix_rfl
  | cons task rest =>
    by_cases hasking : task.phase.isAsking = true
    · rw [begun, if_pos hasking]
      exact List.nil_prefix
    · rw [begun, if_neg hasking]
      exact ⟨rest.map Task.number, rfl⟩

theorem frontPhase_of_waiting (hwaiting : ∀ task ∈ live, task.phase.isAsking = true) :
    frontPhase live = .asking := by
  cases live with
  | nil => rfl
  | cons task rest => exact Phase.eq_asking (hwaiting task List.mem_cons_self)

theorem Queued.isSent_of_front (h : Queued transport done (task :: rest)) (phase : Phase)
    {write : Write} (hsent : write.IsSent transport.tasks) :
    write.IsSent (done ++ { task with phase } :: rest) := by
  obtain ⟨old, hold, hnumber, hpurpose⟩ := hsent
  rw [h.tasks_eq] at hold
  rcases List.mem_append.mp hold with hdone | hlive
  · exact ⟨old, List.mem_append_left _ hdone, hnumber, hpurpose⟩
  · rcases List.mem_cons.mp hlive with rfl | hrest
    · exact ⟨_, List.mem_append_right _ List.mem_cons_self, hnumber, hpurpose⟩
    · exact ⟨old, List.mem_append_right _ (List.mem_cons_of_mem _ hrest), hnumber, hpurpose⟩

theorem Queued.numbers_of_front (h : Queued transport done (task :: rest)) (phase : Phase) :
    (done ++ { task with phase } :: rest).map Task.number = transport.tasks.map Task.number := by
  rw [h.tasks_eq, List.map_append, List.map_append]
  rfl

theorem writes_append_singleton (history : List (Transport × Step)) (transport : Transport)
    (step : Step) : writes (history ++ [(transport, step)]) =
      writes history ++ (transport.write? step).toList :=
  Run.observed_append_singleton _ history transport step

theorem called_append_singleton (history : List (Transport × Step)) (transport : Transport)
    (step : Step) : called (history ++ [(transport, step)]) =
      called history ++ step.called?.toList :=
  Run.observed_append_singleton _ history transport step

theorem entered_append_singleton (history : List (Transport × Step)) (transport : Transport)
    (step : Step) : entered (history ++ [(transport, step)]) =
      entered history ++ step.entered?.toList :=
  Run.observed_append_singleton _ history transport step

theorem writes_of_none (history : List (Transport × Step)) (hwrite : transport.write? step = none) :
    writes (history ++ [(transport, step)]) = writes history := by
  rw [writes_append_singleton, hwrite, Option.toList_none, List.append_nil]

theorem Standing.begin {number : Nat} (h : Standing history transport done live)
    (purpose : Purpose) (hfresh : transport.task? number = none)
    (hcalled : step.called? = some number) (hentered : step.entered? = none)
    (hwrite : transport.write? step = none) :
    Standing (history ++ [(transport, step)]) (transport.begin number purpose) done
      (live ++ [⟨number, purpose, .asking⟩]) := by
  have hwrites := writes_of_none history hwrite
  have hfront : frontPhase (live ++ [⟨number, purpose, .asking⟩]) = frontPhase live := by
    cases live <;> rfl
  have hbegun : begun (live ++ [⟨number, purpose, .asking⟩]) = begun live := by
    cases live <;> rfl
  refine ⟨h.queued.begin purpose hfresh, ?_, ?_, ?_, ?_, ?_⟩
  · rw [hwrites, hfront]
    exact h.carried
  · rw [hwrites]
    intro write hmem
    obtain ⟨task, htask, hsent⟩ := h.sent write hmem
    exact ⟨task, List.mem_append_left _ htask, hsent⟩
  · rw [hwrites]
    exact h.complete_eq
  · rw [called_append_singleton, hcalled, h.called_eq, Transport.begin, List.map_append]
    rfl
  · rw [entered_append_singleton, hentered, hbegun, h.entered_eq, Option.toList_none,
      List.append_nil]

theorem Standing.signal (h : Standing history transport done live)
    (hcalled : step.called? = none) (hentered : step.entered? = none)
    (hwrite : transport.write? step = none) :
    Standing (history ++ [(transport, step)]) transport.signal done live := by
  have hwrites := writes_of_none history hwrite
  refine ⟨h.queued.congr rfl rfl, ?_, ?_, ?_, ?_, ?_⟩
  · rw [hwrites]
    exact h.carried
  · rw [hwrites]
    exact h.sent
  · rw [hwrites]
    exact h.complete_eq
  · rw [called_append_singleton, hcalled, Option.toList_none, List.append_nil]
    exact h.called_eq
  · rw [entered_append_singleton, hentered, Option.toList_none, List.append_nil]
    exact h.entered_eq

/-- The first step of a task with the lock puts it behind those that had the lock before. -/
theorem Standing.entered_front (h : Standing history transport done (task :: rest))
    (hentered : step.entered? = if task.phase.isAsking then some task.number else none) :
    entered (history ++ [(transport, step)]) = done.map Task.number ++ [task.number] := by
  rw [entered_append_singleton, h.entered_eq, hentered, List.append_assoc, begun]
  cases task.phase.isAsking <;> rfl

theorem Standing.sent_front (h : Standing history transport done (task :: rest))
    (hmoves : Moves transport task (transport.write? step) after) :
    ∀ write ∈ writes (history ++ [(transport, step)]), write.IsSent transport.tasks := by
  intro write hwrite
  rw [writes_append_singleton] at hwrite
  rcases List.mem_append.mp hwrite with hold | hnew
  · exact h.sent write hold
  · have hfront : task ∈ transport.tasks := by
      rw [h.queued.tasks_eq]
      exact List.mem_append_right _ List.mem_cons_self
    obtain ⟨hnumber, hpurpose⟩ := hmoves.owned write hnew
    exact ⟨task, hfront, hnumber.symm, hpurpose⟩

theorem Standing.front (h : Standing history transport done (task :: rest))
    (hmoves : Moves transport task (transport.write? step) after)
    (hcalled : step.called? = none)
    (hentered : step.entered? = if task.phase.isAsking then some task.number else none) :
    ∃ done' live', Standing (history ++ [(transport, step)]) after done' live' := by
  have hentry := h.entered_front hentered
  have hsent := h.sent_front hmoves
  have hwrites := writes_append_singleton history transport step
  have hcall : called (history ++ [(transport, step)]) = transport.tasks.map Task.number := by
    rw [called_append_singleton, hcalled, Option.toList_none, List.append_nil, h.called_eq]
  rcases hmoves.outcome h.queued h.carried with
    ⟨phase, hbusy, hqueued, hcarried, hcomplete⟩ | ⟨result, hqueued, hcarried, hcomplete⟩
  · refine ⟨done, _, hqueued, ?_, ?_, ?_, ?_, ?_⟩
    · rw [hwrites]
      exact hcarried
    · rw [hqueued.tasks_eq]
      exact fun write hwrite ↦ h.queued.isSent_of_front phase (hsent write hwrite)
    · rw [hwrites, complete_append, hcomplete, List.append_nil, h.complete_eq]
    · rw [hcall, hqueued.tasks_eq, h.queued.numbers_of_front]
    · rw [hentry, begun, Phase.isAsking_of_isBusy hbusy]
      rfl
  · have hwaiting : ∀ other ∈ rest, other.phase.isAsking = true := h.queued.waiting
    have hsplit : (done ++ [{ task with phase := .finished result }]) ++ rest =
        done ++ { task with phase := .finished result } :: rest := by
      rw [List.append_assoc]
      rfl
    refine ⟨_, rest, hqueued, ?_, ?_, ?_, ?_, ?_⟩
    · rw [hwrites, frontPhase_of_waiting hwaiting]
      exact hcarried
    · rw [hqueued.tasks_eq, hsplit]
      exact fun write hwrite ↦ h.queued.isSent_of_front _ (hsent write hwrite)
    · rw [hwrites, complete_append, hcomplete, h.complete_eq, List.filterMap_append]
      cases hdelivered : delivered? { task with phase := .finished result } <;> simp [hdelivered]
    · rw [hcall, hqueued.tasks_eq, hsplit, h.queued.numbers_of_front]
    · rw [hentry, begun_eq_nil hwaiting, List.append_nil, List.map_append]
      rfl

theorem standing {address : String} {policy : RedialPolicy}
    (run : Run step? { address, policy } history transport) :
    ∃ done live, Standing history transport done live := by
  induction run with
  | start =>
    refine ⟨[], [], .start address policy, ⟨.start, ?_, trivial⟩, ?_, rfl, rfl, rfl⟩
    · rintro connection ⟨⟩
      exact ⟨rfl, fun _ hmem ↦ nomatch hmem⟩
    · exact fun _ hmem ↦ nomatch hmem
  | step run possible ih =>
    obtain ⟨done, live, h⟩ := ih
    rcases step?_cases h.queued possible with
      ⟨number, purpose, hfresh, rfl, hcalled, hentered, hwrite⟩ |
        ⟨rfl, hcalled, hentered, hwrite⟩ | ⟨task, rest, rfl, hmoves, hcalled, hentered⟩
    · exact ⟨_, _, h.begin purpose hfresh hcalled hentered hwrite⟩
    · exact ⟨_, _, h.signal hcalled hentered hwrite⟩
    · exact h.front hmoves hcalled hentered

theorem delivered?_eq_none_of_live (h : Queued transport done live) :
    live.filterMap delivered? = [] := by
  refine List.filterMap_eq_nil_iff.mpr fun task htask ↦ ?_
  have hbusy : task.phase.isFinished = false := by
    cases live with
    | nil => cases htask
    | cons first rest =>
      rcases List.mem_cons.mp htask with rfl | hrest
      · exact h.turn task rfl
      · rw [Phase.eq_asking (h.waiting task hrest)]
        rfl
  unfold delivered?
  split
  · next hfinished =>
    rw [hfinished] at hbusy
    cases hbusy
  · rfl

theorem delivered?_number (task : Task) (found : Nat × Message)
    (hfound : delivered? task = some found) : found.1 = task.number := by
  unfold delivered? at hfound
  split at hfound
  · cases hfound
    rfl
  · cases hfound

/-- What a run leaves on the connections. -/
structure FramesWhole (history : List (Transport × Step)) (transport : Transport) : Prop where
  /-- A connection has accepted complete frames, and behind them at most a part of one more. -/
  accepted : ∀ connection octets, transport.accepted[connection]? = some octets →
    ∃ whole cut : List Write, writesOn connection (writes history) = whole ++ cut ∧
      cut.length ≤ 1 ∧ (∀ write ∈ whole, write.isWhole = true) ∧ (∀ write ∈ cut, write.IsCut) ∧
      octets = whole.flatMap (fun write ↦ frame write.message) ++ cut.flatMap Write.octets
  sent : ∀ write ∈ writes history, write.IsSent transport.tasks
  /-- A send that succeeded has one complete frame on all connections together. -/
  succeeded : ∀ task ∈ transport.tasks, ∀ message, task.purpose = .send message →
    task.phase = .finished (.ok ()) →
    (complete (writes history)).filter (fun written ↦ written.1 = task.number) =
      [(task.number, message)]
  /-- A send that failed, or is not over, has none. -/
  failed : ∀ task ∈ transport.tasks, task.phase ≠ .finished (.ok ()) →
    (complete (writes history)).filter (fun written ↦ written.1 = task.number) = []
  /-- Complete frames come in the order in which their sends got the lock. -/
  ordered : ((complete (writes history)).map Prod.fst).Sublist (entered history)
  /-- The lock is given in the order of the calls. -/
  inTurn : entered history <+: called history
  /-- A connection is not written on again once a later one has been. -/
  forward : (writes history).Pairwise fun earlier later ↦ earlier.connection ≤ later.connection

/-- Frames stay whole in every run of sends and closes. -/
theorem framesWhole_of_run {address : String} {policy : RedialPolicy}
    (run : Run step? { address, policy } history transport) : FramesWhole history transport := by
  obtain ⟨done, live, h⟩ := standing run
  have htasks := h.queued.tasks_eq
  have hnodup := h.queued.nodup
  have hcomplete : complete (writes history) = transport.tasks.filterMap delivered? := by
    rw [h.complete_eq, htasks, List.filterMap_append, delivered?_eq_none_of_live h.queued,
      List.append_nil]
  have hof : ∀ task ∈ transport.tasks,
      (complete (writes history)).filter (fun written ↦ written.1 = task.number) =
        (delivered? task).toList := by
    intro task htask
    rw [hcomplete]
    exact Numbered.filter_filterMap Task.number delivered?_number hnodup htask
  refine ⟨?_, h.sent, ?_, ?_, ?_, ?_, h.carried.kept.ordered⟩
  · intro connection octets hoctets
    obtain ⟨whole, cut, hwrites, hlength, hwhole, hcut⟩ := h.carried.kept.split connection
    refine ⟨whole, cut, hwrites, hlength, hwhole, hcut, ?_⟩
    have hframes : whole.flatMap Write.octets = whole.flatMap fun write ↦ frame write.message :=
      List.flatMap_congr fun write hwrite ↦ octets_of_isWhole (hwhole write hwrite)
    rw [h.carried.kept.accepted_eq connection octets hoctets, hwrites, List.flatMap_append, hframes]
  · intro task htask message hpurpose hphase
    rw [hof task htask, delivered?, hpurpose, hphase]
    rfl
  · intro task htask hphase
    rw [hof task htask]
    unfold delivered?
    split
    · next hsend hfinished => exact absurd hfinished hphase
    · rfl
  · rw [h.complete_eq, h.entered_eq]
    exact (Numbered.sublist_filterMap Task.number delivered?_number done).trans
      (List.sublist_append_left _ _)
  · rw [h.entered_eq, h.called_eq, htasks, List.map_append]
    exact (List.prefix_append_right_inj _).mpr (begun_isPrefix live)

/-- The second of three sends breaks its connection after three octets and succeeds on the next; the
third finds this one closed, and nobody answers when it dials. -/
def breakingSteps (first second third : Message) : List Step :=
  let fault : IoFault := ⟨.connectionReset, "connection closed by peer"⟩
  [.send 0 first, .send 1 second, .enter 0, .wrote 0 .whole, .enter 1, .send 2 third,
    .wrote 1 (.broken 3 fault), .dialled 1 .connected, .wrote 1 .whole, .enter 2,
    .wrote 2 (.broken 0 fault), .dialled 2 (.refused fault)]

theorem framesWhole_of_breakingSteps : ∃ history transport,
    Run step? { address := "", policy := { maxAttempts := some 1 } } history transport ∧
      transport.accepted = [frame { shortMessage := "a" } ++ (frame { shortMessage := "b" }).take 3,
        frame { shortMessage := "b" }] ∧
      FramesWhole history transport := by
  have hfollow : (Run.follow? step? { address := "", policy := { maxAttempts := some 1 } }
      (breakingSteps { shortMessage := "a" } { shortMessage := "b" } {})).map
        (fun taken ↦ taken.2.accepted) =
      some [frame { shortMessage := "a" } ++ (frame { shortMessage := "b" }).take 3,
        frame { shortMessage := "b" }] := by
    decide +kernel
  obtain ⟨⟨history, transport⟩, htaken, haccepted⟩ := Option.map_eq_some_iff.mp hfollow
  have run := Run.of_follow? htaken
  exact ⟨history, transport, run, haccepted, framesWhole_of_run run⟩

end Runs

end Transport

end GelfCourier.Stream
