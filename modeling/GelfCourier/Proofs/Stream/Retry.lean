import GelfCourier.Proofs.Stream.Redial

/-!
A send writes its frame on the connection that it finds. If it finds none, or that write breaks, it
searches for another and writes once more; there is no third write. It succeeds just if one of the
two was whole, the connection that took the frame is then in the slot, and a send that fails leaves
the slot empty, so that the next one searches with the whole budget.
-/

set_option autoImplicit false

namespace GelfCourier.Stream

/-! ### The course of a send -/

def Act.write? : Act → Option Transport.Write
  | .wrote write => some write
  | _ => none

/-- The writes of a send, in order. -/
def written (acts : List Act) : List Transport.Write :=
  acts.filterMap Act.write?

/-- Where a send begins to work. -/
def Phase.entry : Option Nat → Phase
  | some connection => .writing connection
  | none => .dialing 1

/-- The writes that fail before a search: the one on the connection in the slot, if there is one. -/
inductive Failed : Option Nat → List Transport.Write → Prop where
  | missing : Failed none []
  | broke (write : Transport.Write) (hcut : write.IsCut) : Failed (some write.connection) [write]

/-- What a send has done since it got the lock, and what it has come to. -/
inductive Course (address : String) (policy : RedialPolicy) (slot : Option Nat) (made : Nat) :
    List Act → View → Prop where
  | writing (connection : Nat) (hslot : slot = some connection) :
      Course address policy slot made [] ⟨.writing connection, slot, made⟩
  | wrote (write : Transport.Write) (hslot : slot = some write.connection)
      (hending : write.ending = .whole) :
      Course address policy slot made [.wrote write] ⟨.finished (.ok ()), slot, made⟩
  | redialing (first : List Transport.Write) (acts : List Act) (phase : Phase)
      (hfailed : Failed slot first) (hredialing : Redialing policy acts phase) :
      Course address policy slot made (first.map .wrote ++ acts) ⟨phase, none, made⟩
  | redialled (first : List Transport.Write) (acts : List Act) (view : View)
      (hfailed : Failed slot first) (hends : RedialEnds address policy none made acts view) :
      Course address policy slot made (first.map .wrote ++ acts) view
  | rewrote (first : List Transport.Write) (acts : List Act) (write : Transport.Write)
      (hfailed : Failed slot first)
      (hends : RedialEnds address policy none made acts
        ⟨.rewriting write.connection, none, made + 1⟩)
      (hending : write.ending = .whole) :
      Course address policy slot made (first.map .wrote ++ acts ++ [.wrote write])
        ⟨.finished (.ok ()), some write.connection, made + 1⟩
  | rebroke (first : List Transport.Write) (acts : List Act) (write : Transport.Write)
      (written : Nat) (fault : IoFault) (hfailed : Failed slot first)
      (hends : RedialEnds address policy none made acts
        ⟨.rewriting write.connection, none, made + 1⟩)
      (hending : write.ending = .broken written fault) (hcut : write.IsCut) :
      Course address policy slot made (first.map .wrote ++ acts ++ [.wrote write])
        ⟨.finished (.error (.io fault)), none, made + 1⟩

theorem Works.not_finished {address : String} {policy : RedialPolicy} {view next : View}
    {act : Act} (works : Works address policy view act next)
    (hover : view.phase.isFinished = true) : False := by
  rw [Phase.isFinished_of_isBusy works.isBusy] at hover
  cases hover

namespace Course

variable {address : String} {policy : RedialPolicy} {slot : Option Nat} {made : Nat}
  {acts : List Act} {act : Act} {view next : View}

theorem start (address : String) (policy : RedialPolicy) (slot : Option Nat) (made : Nat) :
    Course address policy slot made [] ⟨.entry slot, slot, made⟩ := by
  cases slot with
  | none => exact .redialing [] [] _ .missing .start
  | some connection => exact .writing connection rfl

theorem search {first : List Transport.Write} (hfailed : Failed slot first)
    (hnext : (Redialing policy acts next.phase ∧ next.slot = none ∧ next.connections = made) ∨
      RedialEnds address policy none made acts next) :
    Course address policy slot made (first.map .wrote ++ acts) next := by
  rcases hnext with ⟨hredialing, hslot, hmade⟩ | hends
  · subst hmade
    have hview : (⟨next.phase, none, next.connections⟩ : View) = next := by rw [← hslot]
    exact hview ▸ .redialing first acts next.phase hfailed hredialing
  · exact .redialled first acts next hfailed hends

theorem step (h : Course address policy slot made acts view)
    (works : Works address policy view act next) :
    Course address policy slot made (acts ++ [act]) next := by
  cases h with
  | writing connection hslot =>
    cases works with
    | wrote write _ _ hending => exact .wrote write hslot hending
    | broke write _ _ written fault hending hcut =>
      subst hslot
      exact .redialing [write] [] _ (.broke write hcut) .start
    | noticed _ _ _ hdialing => cases hdialing
  | redialing first acts phase hfailed hredialing =>
    rw [List.append_assoc]
    exact search hfailed (hredialing.step works)
  | redialled first acts view hfailed hends =>
    cases hends with
    | connected faults hbudget =>
      -- Only a search that has a connection is followed by another act.
      cases works with
      | rewrote write _ _ hending =>
        exact .rewrote first _ write hfailed (.connected faults hbudget) hending
      | rebroke write _ _ written fault hending hcut =>
        exact .rebroke first _ write written fault hfailed (.connected faults hbudget) hending hcut
      | noticed _ _ _ hdialing => cases hdialing
    | _ => exact (works.not_finished rfl).elim
  | _ => exact (works.not_finished rfl).elim

theorem of_walk (walk : Walk address policy ⟨.entry slot, slot, made⟩ acts view) :
    Course address policy slot made acts view := by
  induction walk with
  | start => exact .start address policy slot made
  | step _ works ih => exact ih.step works

end Course

/-! ### Its writes -/

theorem written_append (acts acts' : List Act) :
    written (acts ++ acts') = written acts ++ written acts' :=
  List.filterMap_append

theorem written_map (writes : List Transport.Write) : written (writes.map .wrote) = writes := by
  unfold written
  rw [List.filterMap_map]
  exact List.filterMap_some

theorem written_refusals (faults : List IoFault) : written (refusals faults) = [] := by
  induction faults with
  | nil => rfl
  | cons fault faults ih =>
    unfold refusals at ih ⊢
    rw [List.flatMap_cons, written_append, ih]
    rfl

section Searches

variable {address : String} {policy : RedialPolicy} {slot : Option Nat} {made : Nat}
  {acts : List Act} {phase : Phase} {view : View}

theorem Redialing.written_eq (h : Redialing policy acts phase) : written acts = [] := by
  cases h with
  | dialing faults hbudget => exact written_refusals faults
  | pausing faults fault hbudget =>
    rw [written_append, written_refusals]
    rfl

theorem RedialEnds.written_eq (h : RedialEnds address policy slot made acts view) :
    written acts = [] := by
  cases h with
  | closed acts phase hredialing =>
    rw [written_append, hredialing.written_eq]
    rfl
  | _ =>
    rw [written_append, written_refusals]
    rfl

/-- A search that leaves a connection has just made it. -/
theorem RedialEnds.connection_eq {connection : Nat}
    (h : RedialEnds address policy slot made acts ⟨.rewriting connection, slot, made + 1⟩) :
    connection = made ∧ acts.getLast? = some (.dialled .connected) := by
  cases h with
  | connected faults hbudget => exact ⟨rfl, List.getLast?_concat⟩

end Searches

/-- The writes of a send: at most one on the connection it found, and at most one on a connection
that it has dialled since, because it found none or the first write broke. -/
structure Attempts (slot : Option Nat) (made : Nat) (acts : List Act)
    (first second : List Transport.Write) : Prop where
  written_eq : written acts = first ++ second
  first_le : first.length ≤ 1
  second_le : second.length ≤ 1
  found : ∀ write ∈ first, slot = some write.connection
  /-- The connection has the number that was next when the send got the lock. -/
  dialled : ∀ write ∈ second, write.connection = made ∧
    (slot = none ∨ ∃ failed ∈ first, failed.IsCut) ∧
    ∃ search, acts = first.map .wrote ++ search ++ [.wrote write] ∧
      search.getLast? = some (.dialled .connected)

namespace Failed

variable {slot : Option Nat} {first : List Transport.Write}

theorem length_le (h : Failed slot first) : first.length ≤ 1 := by
  cases h with
  | missing => exact Nat.zero_le 1
  | broke write hcut => exact Nat.le_refl 1

theorem found (h : Failed slot first) :
    ∀ write ∈ first, slot = some write.connection ∧ write.IsCut := by
  cases h with
  | missing => exact fun _ hmem ↦ nomatch hmem
  | broke write hcut =>
    intro other hother
    rw [List.mem_singleton.mp hother]
    exact ⟨rfl, hcut⟩

theorem cause (h : Failed slot first) : slot = none ∨ ∃ failed ∈ first, failed.IsCut := by
  cases h with
  | missing => exact .inl rfl
  | broke write hcut => exact .inr ⟨write, List.mem_singleton_self write, hcut⟩

end Failed

namespace Attempts

variable {address : String} {policy : RedialPolicy} {slot : Option Nat} {made : Nat}
  {acts : List Act} {first : List Transport.Write}

theorem searched (hfailed : Failed slot first) (hnone : written acts = []) :
    Attempts slot made (first.map .wrote ++ acts) first [] where
  written_eq := by rw [written_append, written_map, hnone]
  first_le := hfailed.length_le
  second_le := Nat.zero_le 1
  found := fun write hwrite ↦ (hfailed.found write hwrite).1
  dialled := fun _ hmem ↦ nomatch hmem

theorem retried {write : Transport.Write} (hfailed : Failed slot first)
    (hends : RedialEnds address policy none made acts
      ⟨.rewriting write.connection, none, made + 1⟩) :
    Attempts slot made (first.map .wrote ++ acts ++ [.wrote write]) first [write] where
  written_eq := by
    rw [written_append, written_append, written_map, hends.written_eq, List.append_nil]
    rfl
  first_le := hfailed.length_le
  second_le := Nat.le_refl 1
  found := fun write hwrite ↦ (hfailed.found write hwrite).1
  dialled := by
    intro other hother
    rw [List.mem_singleton.mp hother]
    obtain ⟨hconnection, hlast⟩ := hends.connection_eq
    exact ⟨hconnection, hfailed.cause, acts, rfl, hlast⟩

end Attempts

theorem Course.exists_attempts {address : String} {policy : RedialPolicy} {slot : Option Nat}
    {made : Nat} {acts : List Act} {view : View} (h : Course address policy slot made acts view) :
    ∃ first second, Attempts slot made acts first second := by
  cases h with
  | writing connection hslot =>
    exact ⟨[], [], rfl, Nat.zero_le 1, Nat.zero_le 1, fun _ hmem ↦ (nomatch hmem),
      fun _ hmem ↦ (nomatch hmem)⟩
  | wrote write hslot hending =>
    refine ⟨[write], [], rfl, Nat.le_refl 1, Nat.zero_le 1, fun other hother ↦ ?_,
      fun _ hmem ↦ (nomatch hmem)⟩
    rwa [List.mem_singleton.mp hother]
  | redialing first acts phase hfailed hredialing =>
    exact ⟨first, [], .searched hfailed hredialing.written_eq⟩
  | redialled first acts view hfailed hends =>
    exact ⟨first, [], .searched hfailed hends.written_eq⟩
  | rewrote first acts write hfailed hends hending =>
    exact ⟨first, [write], .retried hfailed hends⟩
  | rebroke first acts write written fault hfailed hends hending hcut =>
    exact ⟨first, [write], .retried hfailed hends⟩

/-! ### Its result -/

/-- The error of a send: that of its search for a connection, or that of its second write. -/
inductive SendFails (address : String) (policy : RedialPolicy) (made : Nat) :
    List Act → TransportFault → Prop where
  | searching (first : List Transport.Write) (search : List Act) (made' : Nat)
      (fault : TransportFault)
      (hends : RedialEnds address policy none made search ⟨.finished (.error fault), none, made'⟩) :
      SendFails address policy made (first.map .wrote ++ search) fault
  | rewriting (earlier : List Act) (write : Transport.Write) (written : Nat) (cause : IoFault)
      (hconnection : write.connection = made) (hending : write.ending = .broken written cause) :
      SendFails address policy made (earlier ++ [.wrote write]) (.io cause)

/-- What the result of a send says about its writes, and what it leaves in the slot. -/
structure SendEnds (address : String) (policy : RedialPolicy) (made : Nat) (message : Message)
    (acts : List Act) (result : Except TransportFault Unit) (slot : Option Nat) : Prop where
  ok_iff : result = .ok () ↔ ∃ write ∈ written acts, write.octets = frame message
  /-- The connection that took the frame is in the slot. -/
  kept : result = .ok () →
    ∃ write ∈ written acts, write.octets = frame message ∧ slot = some write.connection
  failed : ∀ fault, result = .error fault →
    slot = none ∧ SendFails address policy made acts fault

theorem octets_of_whole {message : Message} {write : Transport.Write}
    (hmessage : write.message = message) (hending : write.ending = .whole) :
    write.octets = frame message := by
  rw [Transport.Write.octets, hending, hmessage]

theorem octets_ne_of_isCut {message : Message} {write : Transport.Write}
    (hmessage : write.message = message) (hcut : write.IsCut) : write.octets ≠ frame message :=
  hmessage ▸ hcut.2

section Results

variable {address : String} {policy : RedialPolicy} {slot slot' : Option Nat} {made made' : Nat}
  {acts : List Act} {message : Message} {result : Except TransportFault Unit}

/-- A search that ends the send ends it with an error. -/
theorem RedialEnds.exists_error
    (h : RedialEnds address policy slot made acts ⟨.finished result, slot', made'⟩) :
    ∃ fault, result = .error fault ∧ slot' = slot := by
  cases h <;> exact ⟨_, rfl, rfl⟩

/-- Assumes: a whole write of the message, on the connection that is then in the slot. -/
theorem SendEnds.of_whole {write : Transport.Write} (hmem : write ∈ written acts)
    (hmessage : write.message = message) (hending : write.ending = .whole) :
    SendEnds address policy made message acts (.ok ()) (some write.connection) where
  ok_iff := ⟨fun _ ↦ ⟨write, hmem, octets_of_whole hmessage hending⟩, fun _ ↦ rfl⟩
  kept := fun _ ↦ ⟨write, hmem, octets_of_whole hmessage hending, rfl⟩
  failed := fun _ hfault ↦ nomatch hfault

/-- Assumes: writes of the message that are all cut. -/
theorem SendEnds.of_cut {fault : TransportFault}
    (hmessage : ∀ write ∈ written acts, write.message = message)
    (hcut : ∀ write ∈ written acts, write.IsCut)
    (hfails : SendFails address policy made acts fault) :
    SendEnds address policy made message acts (.error fault) none where
  ok_iff := by
    refine ⟨fun hok ↦ (nomatch hok), ?_⟩
    rintro ⟨write, hmem, hoctets⟩
    exact (octets_ne_of_isCut (hmessage write hmem) (hcut write hmem) hoctets).elim
  kept := fun hok ↦ nomatch hok
  failed := by
    rintro _ ⟨⟩
    exact ⟨rfl, hfails⟩

/-- A cut write is not whole. -/
theorem isCut_ne_whole {write : Transport.Write} (hcut : write.IsCut) : write.ending ≠ .whole :=
  fun hending ↦ hcut.2 (octets_of_whole rfl hending)

/-- A send that has written its frame whole is over. -/
theorem Course.phase_of_whole {view : View} {write : Transport.Write}
    (h : Course address policy slot made acts view) (hmem : write ∈ written acts)
    (hwhole : write.ending = .whole) : view.phase = .finished (.ok ()) := by
  have hnone (first : List Transport.Write) (hfailed : Failed slot first)
      (hfirst : write ∈ first) : view.phase = .finished (.ok ()) :=
    (isCut_ne_whole (hfailed.found write hfirst).2 hwhole).elim
  cases h with
  | writing connection hslot => cases hmem
  | wrote other hslot hending => rfl
  | redialing first acts phase hfailed hredialing =>
    rw [written_append, written_map, hredialing.written_eq, List.append_nil] at hmem
    exact hnone first hfailed hmem
  | redialled first acts view hfailed hends =>
    rw [written_append, written_map, hends.written_eq, List.append_nil] at hmem
    exact hnone first hfailed hmem
  | rewrote first acts other hfailed hends hending => rfl
  | rebroke first acts other broken fault hfailed hends hending hcut =>
    rw [(Attempts.retried hfailed hends).written_eq] at hmem
    rcases List.mem_append.mp hmem with hfirst | hsecond
    · exact hnone first hfailed hfirst
    · rw [List.mem_singleton.mp hsecond] at hwhole
      exact (isCut_ne_whole hcut hwhole).elim

theorem Course.sendEnds (h : Course address policy slot made acts ⟨.finished result, slot', made'⟩)
    (hmessage : ∀ write ∈ written acts, write.message = message) :
    SendEnds address policy made message acts result slot' := by
  cases h with
  | wrote write hslot hending =>
    have hmem : write ∈ written [.wrote write] := List.mem_singleton_self write
    rw [hslot]
    exact .of_whole hmem (hmessage write hmem) hending
  | redialing first acts phase hfailed hredialing => cases hredialing.isDialing
  | redialled first acts view hfailed hends =>
    have hcut : ∀ write ∈ written (first.map Act.wrote ++ acts), write.IsCut := by
      rw [written_append, written_map, hends.written_eq, List.append_nil]
      exact fun write hwrite ↦ (hfailed.found write hwrite).2
    obtain ⟨fault, rfl, rfl⟩ := hends.exists_error
    exact .of_cut hmessage hcut (.searching first acts made' fault hends)
  | rewrote first acts write hfailed hends hending =>
    have hmem : write ∈ written (first.map Act.wrote ++ acts ++ [.wrote write]) := by
      rw [(Attempts.retried hfailed hends).written_eq]
      exact List.mem_append_right _ (List.mem_singleton_self write)
    exact .of_whole hmem (hmessage write hmem) hending
  | rebroke first acts write broken fault hfailed hends hending hcut =>
    refine .of_cut hmessage ?_ (.rewriting _ write broken fault hends.connection_eq.1 hending)
    rw [(Attempts.retried hfailed hends).written_eq]
    exact List.forall_mem_append.mpr ⟨fun other hother ↦ (hfailed.found other hother).2,
      List.forall_mem_singleton.mpr hcut⟩

end Results

/-! ### How long it takes -/

section Lengths

variable {address : String} {policy : RedialPolicy} {slot : Option Nat} {made most : Nat}
  {acts : List Act} {phase : Phase} {view : View}

theorem length_refusals (faults : List IoFault) : (refusals faults).length = 2 * faults.length := by
  induction faults with
  | nil => rfl
  | cons fault faults ih =>
    unfold refusals at ih ⊢
    rw [List.flatMap_cons, List.length_append, ih, List.length_cons]
    simp only [List.length_cons, List.length_nil]
    omega

theorem Redialing.length_le (h : Redialing policy acts phase) (hmost : most ∈ policy.budget?) :
    acts.length + 2 ≤ 2 * most := by
  cases h with
  | dialing faults hbudget =>
    have hless := hbudget most hmost
    rw [length_refusals]
    omega
  | pausing faults fault hbudget =>
    have hless := hbudget most hmost
    rw [List.length_append, length_refusals, List.length_singleton]
    omega

theorem RedialEnds.length_le (h : RedialEnds address policy slot made acts view)
    (hmost : most ∈ policy.budget?) : acts.length + 1 ≤ 2 * most := by
  have hone (faults : List IoFault) (act : Act) (hless : faults.length < most) :
      (refusals faults ++ [act]).length + 1 ≤ 2 * most := by
    rw [List.length_append, length_refusals, List.length_singleton]
    omega
  cases h with
  | connected faults hbudget => exact hone faults _ (hbudget most hmost)
  | unusable faults fault hbudget => exact hone faults _ (hbudget most hmost)
  | exhausted faults fault hspent =>
    obtain rfl : faults.length + 1 = most := Option.some.inj (hspent.symm.trans hmost)
    exact hone faults _ (Nat.lt_succ_self _)
  | closed acts phase hredialing =>
    have hle := hredialing.length_le hmost
    rw [List.length_append, List.length_singleton]
    omega

/-- Where the dials are bounded, so are all acts of a send. -/
theorem Course.length_le (h : Course address policy slot made acts view)
    (hmost : most ∈ policy.budget?) : acts.length ≤ 2 * most + 1 := by
  have hone := one_le_of_budget? hmost
  have hsearched (first : List Transport.Write) (search : List Act) (hfailed : Failed slot first)
      (hle : search.length + 1 ≤ 2 * most) :
      (first.map Act.wrote ++ search).length ≤ 2 * most := by
    have hfirst := hfailed.length_le
    rw [List.length_append, List.length_map]
    omega
  cases h with
  | writing connection hslot => exact Nat.zero_le _
  | wrote write hslot hending =>
    rw [List.length_singleton]
    omega
  | redialing first acts phase hfailed hredialing =>
    have hle := hredialing.length_le hmost
    exact (hsearched first acts hfailed (by omega)).trans (Nat.le_succ _)
  | redialled first acts view hfailed hends =>
    exact (hsearched first acts hfailed (hends.length_le hmost)).trans (Nat.le_succ _)
  | rewrote first acts write hfailed hends hending =>
    rw [List.length_append]
    exact Nat.succ_le_succ (hsearched first acts hfailed (hends.length_le hmost))
  | rebroke first acts write written fault hfailed hends hending hcut =>
    rw [List.length_append]
    exact Nat.succ_le_succ (hsearched first acts hfailed (hends.length_le hmost))

end Lengths

/-! ### Refusals and then a connection -/

/-- Refusals with these faults, then a connection. -/
def refusedThen (faults : List IoFault) (dial : Nat) : DialEnd :=
  match faults[dial - 1]? with
  | some fault => .refused fault
  | none => .connected

theorem refusedThen_eq_connected (faults : List IoFault) :
    refusedThen faults (faults.length + 1) = .connected := by
  unfold refusedThen
  rw [Nat.add_sub_cancel, List.getElem?_eq_none (Nat.le_refl _)]

theorem refusedThen_eq_refused {faults : List IoFault} {i : Nat} (hi : i < faults.length) :
    refusedThen faults (i + 1) = .refused faults[i] := by
  unfold refusedThen
  rw [Nat.add_sub_cancel, List.getElem?_eq_getElem hi]

theorem isFirst_refusedThen (faults : List IoFault) :
    IsFirst (refusedThen faults) (some (faults.length + 1)) := by
  refine ⟨Nat.le_add_left 1 _, by rw [refusedThen_eq_connected]; rfl, fun dial hone hdial ↦ ?_⟩
  obtain ⟨i, rfl⟩ := Nat.exists_eq_add_of_le' hone
  rw [refusedThen_eq_refused (Nat.lt_of_add_lt_add_right hdial)]
  rfl

theorem answersTo_refusedThen (faults : List IoFault) :
    answersTo (refusedThen faults) faults.length = faults.map .refused := by
  have hlength := length_answersTo (refusedThen faults) faults.length
  refine List.ext_getElem (hlength.trans (List.length_map _).symm) fun i hi hi' ↦ ?_
  have hless : i < faults.length := hlength ▸ hi
  rw [List.getElem_map, ← refusedThen_eq_refused hless]
  simp only [answersTo, List.getElem_map, List.getElem_range', Nat.one_mul, Nat.add_comm 1]

theorem redials_refusedThen (faults : List IoFault) :
    redials (answersTo (refusedThen faults) (faults.length + 1)) =
      refusals faults ++ [.dialled .connected] := by
  rw [answersTo_succ, answersTo_refusedThen, refusedThen_eq_connected, redials_refused]
  rfl

namespace Transport

variable {transport before after later : Transport} {task : Task} {number : Nat}
  {history onward : List (Transport × Step)} {step : Step} {address : String}
  {policy : RedialPolicy} {phase : Phase} {message : Message}

/-! ### A send at work -/

/-- A send that has its turn, on a transport that is open. -/
structure Enters (transport : Transport) (task : Task) (message : Message) : Prop where
  task?_eq : transport.task? task.number = some task
  purpose_eq : task.purpose = .send message
  phase_eq : task.phase = .asking
  held : transport.lock.isHeldBy task.number = true
  opened : transport.closed = false

namespace Enters

theorem possible (h : Enters transport task message) :
    transport.step? (.enter task.number) = some (transport.enter task) :=
  step?_enter h.task?_eq h.phase_eq h.held

theorem enter_eq (h : Enters transport task message) :
    transport.enter task = transport.setPhase task.number (.entry transport.slot) := by
  have hopen : ¬transport.closed = true := by rw [h.opened]; exact Bool.false_ne_true
  unfold enter
  rw [h.purpose_eq]
  dsimp only
  rw [if_neg hopen]
  cases transport.slot <;> rfl

theorem task?_enter (h : Enters transport task message) :
    (transport.enter task).task? task.number =
      some { task with phase := .entry transport.slot } := by
  rw [h.enter_eq]
  exact task?_goesOn rfl h.task?_eq _

theorem walked (h : Enters transport task message)
    (run : Run step? { address, policy } history transport)
    (onto : Run step? (transport.enter task) onward later) :
    ∃ view, Walked address policy ⟨.entry transport.slot, transport.slot, transport.accepted.length⟩
        { task with phase := .entry transport.slot } onward later view ∧
      view.phase.isAsking = false := by
  have hbusy : (Phase.entry transport.slot).isBusy = true := by cases transport.slot <;> rfl
  have hview : (transport.enter task).view (.entry transport.slot) =
      ⟨.entry transport.slot, transport.slot, transport.accepted.length⟩ := by
    rw [h.enter_eq]
    rfl
  rw [← hview]
  let entered : Task := { task with phase := .entry transport.slot }
  have htask : (transport.enter task).task? entered.number = some entered := h.task?_enter
  obtain ⟨view, hwalked⟩ := walked_of_run (run.step h.possible) htask hbusy onto
  exact ⟨view, hwalked, hwalked.walk.isAsking_eq_false (Phase.isAsking_of_isBusy hbusy)⟩

end Enters

theorem step?_wrote {connection : Nat} {ending : WriteEnd}
    (htask : transport.task? number = some task) (hpurpose : task.purpose = .send message)
    (hphase : task.phase = .writing connection ∨ task.phase = .rewriting connection)
    (hpartial : isPartial (frame message) ending = true) :
    transport.step? (.wrote number ending) =
      some (transport.wrote task (frame message) ending) := by
  rcases hphase with hphase | hphase <;>
    simp only [step?, htask, hphase, hpurpose, hpartial, if_true]

/-- What may happen next to a send in this phase: its write or its dial ends in any way. -/
def Open (transport : Transport) (number : Nat) (message : Message) : Phase → Prop
  | .writing _ => ∀ ending, isPartial (frame message) ending = true →
    ∃ after, transport.step? (.wrote number ending) = some after
  | .rewriting _ => ∀ ending, isPartial (frame message) ending = true →
    ∃ after, transport.step? (.wrote number ending) = some after
  | .dialing _ => ∀ answer, ∃ after, transport.step? (.dialled number answer) = some after
  | .pausing _ => ∃ after, transport.step? (.rested number) = some after
  | _ => False

theorem open_of_isBusy (htask : transport.task? number = some task)
    (hpurpose : task.purpose = .send message) (hbusy : task.phase.isBusy = true) :
    Open transport number message task.phase := by
  cases hphase : task.phase with
  | writing connection =>
    exact fun ending hpartial ↦ ⟨_, step?_wrote htask hpurpose (.inl hphase) hpartial⟩
  | rewriting connection =>
    exact fun ending hpartial ↦ ⟨_, step?_wrote htask hpurpose (.inr hphase) hpartial⟩
  | dialing attempt => exact fun answer ↦ ⟨_, step?_dialled answer htask hphase⟩
  | pausing attempt => exact ⟨_, step?_rested htask hphase⟩
  | asking => rw [hphase] at hbusy; cases hbusy
  | finished result => rw [hphase] at hbusy; cases hbusy

/-! ### The slot between two sends -/

/-- Nobody has the lock and is at work. -/
def IsIdle (transport : Transport) : Prop :=
  ∀ number task, transport.task? number = some task → task.phase.isBusy = false

theorem isIdle_of_finished {result : Except TransportFault Unit}
    (run : Run step? { address, policy } history before)
    (htask : before.task? number = some task) (hbusy : task.phase.isBusy = true)
    (possible : before.step? step = some after) (hby : step.by? = some number)
    (hover : after.phase? number = some (.finished result)) : IsIdle after := by
  obtain ⟨done, live, hstanding⟩ := standing run
  obtain ⟨rest, rfl⟩ := hstanding.queued.front_of_busy htask hbusy
  obtain ⟨found, hfound, hmoves, -⟩ := moves_of_by? possible hby
  obtain rfl : task = found := Option.some.inj (htask.symm.trans hfound)
  obtain rfl := number_of_task? htask
  rcases hmoves.outcome hstanding.queued hstanding.carried with
    ⟨phase, hstill, hqueued, -, -⟩ | ⟨_, hqueued, -, -⟩
  · -- The send in front would still be at work.
    have hmem : { task with phase } ∈ after.tasks := by
      rw [hqueued.tasks_eq]
      exact List.mem_append_right _ List.mem_cons_self
    have hphase : after.phase? task.number = some phase :=
      phase?_of_task? (Numbered.find?_of_mem Task.number hqueued.nodup hmem)
    rw [Option.some.inj (hphase.symm.trans hover)] at hstill
    cases hstill
  · exact fun _ _ hother ↦ hqueued.idle_of_waiting hstanding.queued.waiting (mem_of_task? hother)

theorem isIdle_begin (purpose : Purpose) (hfresh : transport.task? number = none)
    (hidle : IsIdle transport) : IsIdle (transport.begin number purpose) := by
  intro other task htask
  rw [task?_begin purpose hfresh] at htask
  split at htask
  · cases htask
    rfl
  · exact hidle other task htask

/-- Until somebody obtains the lock, the slot stays as it is. -/
theorem slot_of_isIdle (hidle : IsIdle transport) (onto : Run step? transport onward later)
    (hentered : entered onward = []) : later.slot = transport.slot ∧ IsIdle later := by
  induction onto with
  | start => exact ⟨rfl, hidle⟩
  | @step onward between after step onto possible ih =>
    rw [entered_append_singleton, List.append_eq_nil_iff] at hentered
    obtain ⟨hbefore, hnone⟩ := hentered
    obtain ⟨hslot, hstill⟩ := ih hbefore
    cases hby : step.by? with
    | none =>
      rcases step?_of_by?_eq_none possible hby with ⟨called, purpose, -, hfresh, -, rfl⟩ | ⟨-, rfl⟩
      · exact ⟨hslot, isIdle_begin purpose hfresh hstill⟩
      · exact ⟨hslot, hstill⟩
    | some mover =>
      obtain ⟨moved, hmoved, -, ⟨rfl, -, -⟩ | ⟨-, hbusy⟩⟩ := moves_of_by? possible hby
      · cases hnone
      · rw [hstill mover moved hmoved] at hbusy
        cases hbusy

/-! ### Whole sends -/

/-- A send that begins with a dial can be refused as often as the budget allows but once. -/
theorem exists_connected (run : Run step? { address, policy } history transport)
    (hstart : transport.phase? number = some (.dialing 1)) (faults : List IoFault)
    (hbudget : ∀ most ∈ policy.budget?, faults.length < most) :
    ∃ onward later, Run step? transport onward later ∧
      acts number onward = refusals faults ++ [.dialled .connected] ∧
      later.phase? number = some (.rewriting transport.accepted.length) := by
  have hfirst := isFirst_refusedThen faults
  have hlast := dials?_of_budget hbudget
  have hfollows : Follows (refusedThen faults)
      (answers (acts number ([] : List (Transport × Step)))) := rfl
  obtain ⟨more, -, hmore⟩ := Redialing.start.redials_eq hfollows hfirst hlast
  obtain ⟨onward, later, next, onto, hacts, hnext, hresult⟩ :=
    exists_completion run hstart hfirst hlast more .start hstart rfl hfollows hmore
  rw [redials_refusedThen] at hacts
  refine ⟨onward, later, onto, hacts, ?_⟩
  have hanswer := refusedThen_eq_connected faults
  cases hresult with
  | connected => exact hnext
  | unusable fault hsome hunusable => rw [hanswer] at hunusable; cases hunusable
  | exhausted fault hspent hbeyond hrefused => rw [hanswer] at hrefused; cases hrefused

/-- What a send comes to that has its turn while the transport is open. -/
structure SendRetries (address : String) (policy : RedialPolicy) (transport : Transport)
    (task : Task) (message : Message) : Prop where
  enters : transport.step? (.enter task.number) = some (transport.enter task)
  attempts : ∀ onward later, Run step? (transport.enter task) onward later →
    ∃ first second,
      Attempts transport.slot transport.accepted.length (acts task.number onward) first second
  /-- A whole write is the last thing it does. -/
  succeeds : ∀ onward later write, Run step? (transport.enter task) onward later →
    write ∈ written (acts task.number onward) → write.ending = .whole →
    later.phase? task.number = some (.finished (.ok ()))
  /-- Whatever may happen next, it is not stuck, and under a budget it does not go on for ever. -/
  goesOn : ∀ onward later, Run step? (transport.enter task) onward later →
    ∃ phase, later.phase? task.number = some phase ∧
      (phase.isFinished = false → Open later task.number message phase) ∧
      ∀ most ∈ policy.budget?, (acts task.number onward).length ≤ 2 * most + 1
  /-- The step that ends it leaves the slot as it stays until somebody obtains the lock. -/
  ends : ∀ onward before step after result, Run step? (transport.enter task) onward before →
    before.step? step = some after → step.by? = some task.number →
    after.phase? task.number = some (.finished result) →
    SendEnds address policy transport.accepted.length message
      (acts task.number (onward ++ [(before, step)])) result after.slot ∧
    ∀ further later, Run step? after further later → entered further = [] →
      later.slot = after.slot
  /-- From an empty slot it searches with the whole budget, and one connection is enough. -/
  recovers : transport.slot = none →
    (transport.enter task).phase? task.number = some (.dialing 1) ∧
    ∀ faults : List IoFault, (∀ most ∈ policy.budget?, faults.length < most) →
      ∃ onward later write, Run step? (transport.enter task) onward later ∧
        write.ending = .whole ∧
        acts task.number onward = refusals faults ++ [.dialled .connected, .wrote write] ∧
        later.phase? task.number = some (.finished (.ok ())) ∧
        later.slot = some transport.accepted.length

namespace Enters

variable {result : Except TransportFault Unit}

theorem sendEnds (h : Enters transport task message)
    (run : Run step? { address, policy } history transport)
    (onto : Run step? (transport.enter task) onward before)
    (possible : before.step? step = some after) (hby : step.by? = some task.number)
    (hover : after.phase? task.number = some (.finished result)) :
    SendEnds address policy transport.accepted.length message
        (acts task.number (onward ++ [(before, step)])) result after.slot ∧ IsIdle after := by
  obtain ⟨view, hwalked, hasking⟩ := h.walked run onto
  have whole := (run.step h.possible).append onto
  obtain ⟨haddress, hpolicy⟩ := settings_of_run whole
  obtain ⟨phase, hnext⟩ := hwalked.of_own haddress hpolicy possible hby hasking
  obtain rfl : phase = .finished result :=
    Option.some.inj ((phase?_of_task? hnext.task?_eq).symm.trans hover)
  have hmessage : ∀ write ∈ written (acts task.number (onward ++ [(before, step)])),
      write.message = message := by
    intro write hwrite
    obtain ⟨act, hact, hsame⟩ := List.mem_filterMap.mp hwrite
    cases act <;> cases hsame
    have hsent := (hnext.sent write hact).2
    exact (Purpose.send.inj (h.purpose_eq.symm.trans hsent)).symm
  have hlive := not_finished_of_by? possible hby hwalked.task?_eq
  have hbusy := Phase.isBusy_of_not hasking hlive
  exact ⟨(Course.of_walk hnext.walk).sendEnds hmessage,
    isIdle_of_finished whole hwalked.task?_eq hbusy possible hby hover⟩

theorem recovers (h : Enters transport task message)
    (run : Run step? { address, policy } history transport) (hempty : transport.slot = none)
    (faults : List IoFault) (hbudget : ∀ most ∈ policy.budget?, faults.length < most) :
    ∃ onward later write, Run step? (transport.enter task) onward later ∧
      write.ending = .whole ∧
      acts task.number onward = refusals faults ++ [.dialled .connected, .wrote write] ∧
      later.phase? task.number = some (.finished (.ok ())) ∧
      later.slot = some transport.accepted.length := by
  have hstart : (transport.enter task).phase? task.number = some (.dialing 1) := by
    rw [phase?_of_task? h.task?_enter, hempty]
    rfl
  have hmade : (transport.enter task).accepted.length = transport.accepted.length := by
    rw [h.enter_eq]
    rfl
  obtain ⟨onward, later, onto, hacts, hphase⟩ :=
    exists_connected (run.step h.possible) hstart faults hbudget
  rw [hmade] at hphase
  obtain ⟨view, hwalked, -⟩ := h.walked run onto
  have hrewriting : view.phase = .rewriting transport.accepted.length :=
    Option.some.inj ((phase?_of_task? hwalked.task?_eq).symm.trans hphase)
  let rewriting : Task := { task with phase := .rewriting transport.accepted.length }
  have htask : later.task? rewriting.number = some rewriting := by
    have htask := hwalked.task?_eq
    rwa [hrewriting] at htask
  have possible : later.step? (.wrote task.number .whole) =
      some (later.wrote rewriting (frame message) .whole) :=
    step?_wrote htask h.purpose_eq (.inr rfl) rfl
  let write : Write := ⟨task.number, message, transport.accepted.length, .whole⟩
  have hact : act? rewriting.number later (.wrote rewriting.number .whole) = some (.wrote write) :=
    act?_wrote .whole htask h.purpose_eq (.inr rfl)
  refine ⟨_, _, write, onto.step possible, rfl, ?_, phase?_of_task? (task?_goesOn rfl htask _), rfl⟩
  rw [acts_append_of_some hact, hacts, List.append_assoc]
  rfl

end Enters

/-- Assumes: a send that has the lock and finds the transport open. -/
theorem sendRetries_of_run (run : Run step? { address, policy } history transport)
    (h : Enters transport task message) :
    SendRetries address policy transport task message where
  enters := h.possible
  attempts := by
    intro onward later onto
    obtain ⟨view, hwalked, -⟩ := h.walked run onto
    exact (Course.of_walk hwalked.walk).exists_attempts
  succeeds := by
    intro onward later write onto hmem hwhole
    obtain ⟨view, hwalked, -⟩ := h.walked run onto
    rw [phase?_of_task? hwalked.task?_eq]
    exact congrArg some ((Course.of_walk hwalked.walk).phase_of_whole hmem hwhole)
  goesOn := by
    intro onward later onto
    obtain ⟨view, hwalked, hasking⟩ := h.walked run onto
    refine ⟨view.phase, phase?_of_task? hwalked.task?_eq, fun hlive ↦ ?_,
      fun most hmost ↦ (Course.of_walk hwalked.walk).length_le hmost⟩
    exact open_of_isBusy hwalked.task?_eq h.purpose_eq (Phase.isBusy_of_not hasking hlive)
  ends := by
    intro onward before step after result onto possible hby hover
    obtain ⟨hends, hidle⟩ := h.sendEnds run onto possible hby hover
    exact ⟨hends, fun _ _ onto' hentered ↦ (slot_of_isIdle hidle onto' hentered).1⟩
  recovers := by
    intro hempty
    refine ⟨?_, h.recovers run hempty⟩
    rw [phase?_of_task? h.task?_enter, hempty]
    rfl

/-- One send breaks the only connection and is refused another, and a second one comes after it. -/
theorem sendRetries_of_refusal : ∃ history transport,
    Run step? { address := "", policy := { maxAttempts := some 1 } } history transport ∧
      transport.slot = none ∧ Enters transport ⟨1, .send { shortMessage := "a" }, .asking⟩
        { shortMessage := "a" } ∧
      SendRetries "" { maxAttempts := some 1 } transport
        ⟨1, .send { shortMessage := "a" }, .asking⟩ { shortMessage := "a" } := by
  let fault : IoFault := ⟨.connectionReset, ""⟩
  have hfollow : (Run.follow? step? { address := "", policy := { maxAttempts := some 1 } }
      [.send 0 {}, .enter 0, .send 1 { shortMessage := "a" }, .wrote 0 (.broken 3 fault),
        .dialled 0 (.refused fault)]).map (fun taken ↦
          (taken.2.slot, taken.2.task? 1, taken.2.lock.isHeldBy 1, taken.2.closed)) =
      some (none, some ⟨1, .send { shortMessage := "a" }, .asking⟩, true, false) := by
    rfl
  obtain ⟨⟨history, transport⟩, htaken, hsame⟩ := Option.map_eq_some_iff.mp hfollow
  have run := Run.of_follow? htaken
  obtain ⟨hslot, hrest⟩ := Prod.mk.inj hsame
  obtain ⟨htask, hrest⟩ := Prod.mk.inj hrest
  obtain ⟨hheld, hopen⟩ := Prod.mk.inj hrest
  have henters : Enters transport ⟨1, .send { shortMessage := "a" }, .asking⟩
      { shortMessage := "a" } := ⟨htask, rfl, rfl, hheld, hopen⟩
  exact ⟨history, transport, run, hslot, henters, sendRetries_of_run run henters⟩

end Transport

end GelfCourier.Stream
