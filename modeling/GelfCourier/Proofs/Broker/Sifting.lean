import GelfCourier.Proofs.Broker.Sends
import GelfCourier.Proofs.Gzip.RoundTrip
import GelfCourier.Proofs.Message.Encoding

/-!
What consumers make of the messages that were sent. A payload is read as the message that it was
made of, unless an extension of the message nests too deep. Nothing asks for that when a message is
sent: the broker takes the payload in, the send is over without a fault, and whoever pops the
payload drops it.
-/

set_option autoImplicit false

namespace GelfCourier

/-! ### Payloads of messages -/

theorem Encoder.read_toBytes_encode {encoder : Encoder} {record : Record}
    (hreads : (encoder.encode record).FloatsReadBack) (hrange : record.time.InRange)
    (hflat : ¬ (encoder.encode record).NestsTooDeep) :
    Message.read (encoder.encode record).toBytes = .ok (encoder.encode record) := by
  rw [Message.nestsTooDeep_iff, Nat.not_lt] at hflat
  have hfinite : (encoder.encode record).timestamp.IsFinite := hrange.isFinite
  have hextra := (encoder.allExtensions_extraFields record).filter_eq
  rw [Message.read_toBytes_of_flat hreads hflat, if_pos hfinite]
  exact congrArg (fun extra ↦ Except.ok { encoder.encode record with extra }) hextra

namespace Payload

theorem read_of_ok {payload content : Bytes} {message : Message}
    (hcontent : Gzip.unpack payload = .ok content) (hread : Message.read content = .ok message) :
    read payload = .ok message := by
  simp only [read, hcontent, hread]

theorem read_of_error {payload content : Bytes} {fault : LayoutFault}
    (hcontent : Gzip.unpack payload = .ok content) (hread : Message.read content = .error fault) :
    read payload = .error (.layout fault) := by
  simp only [read, hcontent, hread]

theorem unpack_forQueue (message : Message) :
    Gzip.unpack (forQueue message) = .ok message.toBytes :=
  Gzip.unpack_pack Gzip.best message.toBytes

theorem forQueue_ne_nil (message : Message) : forQueue message ≠ [] := List.cons_ne_nil _ _

theorem read_forQueue_of_deep {message : Message} (hreads : message.FloatsReadBack)
    (hdeep : message.NestsTooDeep) :
    read (forQueue message) = .error (.layout (.json .malformed)) :=
  read_of_error (unpack_forQueue message) (Message.read_toBytes_of_deep hreads
    ((Message.nestsTooDeep_iff message).mp hdeep))

theorem read_forQueue_encode {encoder : Encoder} {record : Record}
    (hreads : (encoder.encode record).FloatsReadBack) (hrange : record.time.InRange)
    (hflat : ¬ (encoder.encode record).NestsTooDeep) :
    read (forQueue (encoder.encode record)) = .ok (encoder.encode record) :=
  read_of_ok (unpack_forQueue _) (Encoder.read_toBytes_encode hreads hrange hflat)

end Payload

namespace Broker

open Transport (Step)
open Message (backlogCall workerEncoder)

theorem isUnreadable_forQueue_iff {encoder : Encoder} {record : Record}
    (hreads : (encoder.encode record).FloatsReadBack) (hrange : record.time.InRange) :
    IsUnreadable (Payload.forQueue (encoder.encode record)) ↔
      (encoder.encode record).NestsTooDeep := by
  constructor
  · intro hunreadable
    by_contra hflat
    rcases hunreadable with hnil | ⟨fault, hfault⟩
    · exact Payload.forQueue_ne_nil _ hnil
    · rw [Payload.read_forQueue_encode hreads hrange hflat] at hfault
      cases hfault
  · exact fun hdeep ↦ .inr ⟨_, Payload.read_forQueue_of_deep hreads hdeep⟩

/-! ### What consumers drop -/

/-- Only what is readable is held, and nothing else is dropped than what is not. -/
structure Task.Sifted (task : Task) : Prop where
  held : ∀ payload, task.phase.held? = some payload → ¬ IsUnreadable payload
  settled : ∀ payload fate, (payload, fate) ∈ task.settled →
    (fate = .dropped ↔ IsUnreadable payload)

namespace Task.Sifted

variable {closed : Bool} {task next : Task} {step : Step}

/-- The task goes on with the same payload, or without one. -/
theorem goOn (h : task.Sifted) (hsettled : next.settled = task.settled)
    (hheld : ∀ payload, next.phase.held? = some payload → task.phase.held? = some payload) :
    next.Sifted :=
  ⟨fun payload hnext ↦ h.held payload (hheld payload hnext), hsettled ▸ h.settled⟩

theorem settle {payload : Bytes} {fate : Fate} (h : task.Sifted)
    (hsettled : next.settled = task.settled ++ [(payload, fate)])
    (hfate : fate = .dropped ↔ IsUnreadable payload) (hheld : next.phase.held? = none) :
    next.Sifted := by
  refine ⟨fun other hother ↦ ?_, fun other given hentry ↦ ?_⟩
  · rw [hheld] at hother
    cases hother
  · rw [hsettled, List.mem_append, List.mem_singleton] at hentry
    rcases hentry with hold | hlast
    · exact h.settled other given hold
    · cases hlast
      exact hfate

/-- A payload that is held meets a fate, and it is not dropped. -/
theorem part {payload : Bytes} {fate : Fate} (h : task.Sifted)
    (hphase : task.phase.held? = some payload)
    (hsettled : next.settled = task.settled ++ [(payload, fate)]) (hfate : fate ≠ .dropped)
    (hheld : next.phase.held? = none) : next.Sifted :=
  h.settle hsettled (iff_of_false hfate (h.held payload hphase)) hheld

theorem aside (h : task.Sifted) (haside : task.Aside closed step next) : next.Sifted := by
  cases haside with
  | giveUp payload sent hphase => exact h.goOn rfl nofun
  | turnBack payload hphase => exact h.goOn rfl fun _ hheld ↦ by rw [hphase]; exact hheld
  | stop hphase => exact h.goOn rfl nofun
  | pop hphase => exact h.goOn rfl nofun
  | connect connection hphase => exact h.goOn rfl nofun
  | miss hphase => exact h.goOn rfl nofun
  | redial payload connection hphase =>
    exact h.goOn rfl fun _ hheld ↦ by rw [hphase]; exact hheld
  | loseDialling payload hphase => exact h.part (by rw [hphase]; rfl) rfl nofun rfl
  | giveBack payload hphase => exact h.part (by rw [hphase]; rfl) rfl nofun rfl
  | losePushing payload hphase => exact h.part (by rw [hphase]; rfl) rfl nofun rfl
  | receive payload hphase hsome hreadable =>
    refine ⟨fun other hother ↦ ?_, h.settled⟩
    cases hother
    exact hreadable
  | drop payload hphase hsome hunreadable =>
    exact h.settle rfl (iff_of_true rfl hunreadable) rfl
  | pass hphase => exact h.goOn rfl nofun
  | disconnect hphase => exact h.goOn rfl nofun
  | handle payload hphase => exact h.part (by rw [hphase]; rfl) rfl nofun rfl
  | «return» payload hphase => exact h.goOn rfl fun _ hheld ↦ by rw [hphase]; exact hheld
  | retry payload hphase => exact h.goOn rfl fun _ hheld ↦ by rw [hphase]; exact hheld
  | rest hphase => exact h.goOn rfl nofun

end Task.Sifted

namespace Transport

variable {settings : BrokerSettings} {list : List Bytes} {history : List (Transport × Step)}
  {transport after : Transport} {number : Nat} {task next : Task} {step : Step} {pool : Pool Nat}
  {payload : Bytes}

theorem Turn.sifted (hturn : transport.Turn task step pool next) (h : task.Sifted) :
    next.Sifted := by
  cases hturn with
  | aside haside => exact h.aside haside
  | claim payload hphase => exact h.goOn rfl fun _ hheld ↦ by rw [hphase]; exact hheld
  | hold payload hphase => exact h.goOn rfl fun _ hheld ↦ by rw [hphase]; exact hheld
  | fill payload hphase => exact h
  | connect payload connection hphase =>
    exact h.goOn rfl fun _ hheld ↦ by rw [hphase]; exact hheld
  | refuse payload hphase => exact h
  | send payload sent hphase => exact h.goOn rfl nofun
  | giveBack payload hphase => exact h.part (by rw [hphase]; rfl) rfl nofun rfl
  | fail payload hphase => exact h.goOn rfl fun _ hheld ↦ by rw [hphase]; exact hheld

theorem sifted (run : Run step? (ofSettings settings list) history transport)
    (htask : transport.task? number = some task) (hconsume : task.purpose = .consume) :
    task.Sifted := by
  induction run generalizing task with
  | start => cases htask
  | @step history before after step run possible ih =>
    rcases task_of_step? possible htask with
      ⟨-, purpose, rfl⟩ | ⟨hknown, -⟩ | ⟨old, hknown, -, hturn⟩
    · cases purpose with
      | send payload => cases hconsume
      | consume => exact ⟨nofun, nofun⟩
    · exact ih hknown hconsume
    · exact hturn.sifted (ih hknown (hturn.purpose_eq ▸ hconsume))

theorem receive_of_readable (hreadable : ¬ IsUnreadable payload) :
    transport.receive task payload =
      transport.put
        { task with popped := task.popped ++ [payload], phase := .handling payload } := by
  have hne : ¬ payload.isEmpty = true := fun hempty ↦
    hreadable (.inl (List.isEmpty_iff.mp hempty))
  rw [receive, if_neg hne]
  cases hread : Payload.read payload with
  | error fault => exact absurd (.inr ⟨fault, hread⟩) hreadable
  | ok message => rfl

theorem receive_of_unreadable (hunreadable : IsUnreadable payload) :
    transport.receive task payload =
      transport.put { { task with popped := task.popped ++ [payload] }.settle payload .dropped with
        phase := .looking } := by
  rw [receive]
  rcases hunreadable with rfl | ⟨fault, hread⟩
  · rfl
  · rw [hread]
    split <;> rfl

/-- A consumer pops the front of the list. -/
theorem step?_popEnded {payload : Bytes} {rest : List Bytes}
    (htask : transport.task? number = some task) (hphase : task.phase = .popping)
    (hsome : task.connection ≠ none) (hlist : transport.list = payload :: rest) :
    transport.step? (.popEnded number .element) =
      some ({ transport with list := rest }.receive task payload) := by
  have hpossible : ¬ (task.connection.isNone ||
      (PopEnd.element == .element && (payload :: rest).isEmpty)) = true := by
    rw [Bool.or_eq_true, not_or]
    exact ⟨fun hnone ↦ hsome (Option.isNone_iff_eq_none.mp hnone), Bool.false_ne_true⟩
  refine step?_of_stepOf? rfl htask ?_
  simp only [stepOf?, hphase, hlist, if_neg hpossible, popEnded]

theorem popping_of_step? {ending : PopEnd} (htask : transport.task? number = some task)
    (h : transport.step? (.popEnded number ending) = some after) :
    task.phase = .popping ∧ task.connection ≠ none := by
  simp only [step?, Step.task?, Option.bind_some, htask, stepOf?] at h
  split at h
  · next hphase =>
    split at h
    · cases h
    · next hpossible =>
      rw [Bool.or_eq_true, not_or] at hpossible
      exact ⟨hphase, fun hnone ↦ hpossible.1 (Option.isNone_iff_eq_none.mpr hnone)⟩
  · cases h

/-! ### Messages handed over -/

/-- What becomes of a message that is sent. -/
structure Handed (message : Message) (transport : Transport) : Prop where
  /-- The handler gets the message that was sent. -/
  read : ¬ message.NestsTooDeep → Payload.read (Payload.forQueue message) = .ok message
  unread : message.NestsTooDeep →
    Payload.read (Payload.forQueue message) = .error (.layout (.json .malformed))
  /-- A send that is over without a fault was acknowledged once, whether the message can be read or
  not. -/
  sent : ∀ number task, transport.task? number = some task →
    task.purpose = .send (Payload.forQueue message) → task.phase = .finished (.ok ()) →
      (transport.appended.filter fun push ↦ push.1 = number) =
        [(number, Payload.forQueue message)]
  /-- A consumer that pops the payload hands it to the handler, or drops it there and then. -/
  popped : ∀ number task after, transport.task? number = some task →
    transport.list.head? = some (Payload.forQueue message) →
    transport.step? (.popEnded number .element) = some after →
      ∃ next, after.task? number = some next ∧
        (¬ message.NestsTooDeep → next.phase = .handling (Payload.forQueue message)) ∧
        (message.NestsTooDeep → next.phase = .looking ∧
          next.settled = task.settled ++ [(Payload.forQueue message, .dropped)])
  /-- What is with the handler or on its way back can be read. -/
  held : ∀ number task, transport.task? number = some task → task.purpose = .consume →
    task.phase.held? = some (Payload.forQueue message) → ¬ message.NestsTooDeep
  /-- Consumers have dropped it if it nests too deep, and in no other case. -/
  settled : ∀ number task, transport.task? number = some task → task.purpose = .consume →
    ∀ fate, (Payload.forQueue message, fate) ∈ task.settled →
      (fate = .dropped ↔ message.NestsTooDeep)

/-- Messages of log calls are handed over unharmed or dropped, by how deep they nest. -/
theorem handed_of_run (run : Run step? (ofSettings settings list) history transport)
    (encoder : Encoder) (record : Record) (hrange : record.time.InRange)
    (hreads : (encoder.encode record).FloatsReadBack) :
    Handed (encoder.encode record) transport := by
  have hunreadable := isUnreadable_forQueue_iff hreads hrange
  refine ⟨Payload.read_forQueue_encode hreads hrange, Payload.read_forQueue_of_deep hreads,
    ?_, ?_, ?_, ?_⟩
  · intro number task htask hpurpose hphase
    rcases appended_of_finished run htask hpurpose hphase with ⟨-, htaken⟩ | ⟨hresult, -⟩
    · exact htaken
    · cases hresult
  · intro number task after htask hfront possible
    obtain ⟨hphase, hsome⟩ := popping_of_step? htask possible
    obtain ⟨rest, hlist⟩ := List.head?_eq_some_iff.mp hfront
    have hnumber := number_of_task? htask
    rw [step?_popEnded htask hphase hsome hlist] at possible
    by_cases hdeep : (encoder.encode record).NestsTooDeep
    · rw [receive_of_unreadable (hunreadable.mpr hdeep)] at possible
      cases possible
      refine ⟨_, (task?_put (hnumber ▸ htask) number).trans (if_pos hnumber.symm), ?_, ?_⟩
      · exact fun hflat ↦ absurd hdeep hflat
      · exact fun _ ↦ ⟨rfl, rfl⟩
    · rw [receive_of_readable (mt hunreadable.mp hdeep)] at possible
      cases possible
      refine ⟨_, (task?_put (hnumber ▸ htask) number).trans (if_pos hnumber.symm), ?_, ?_⟩
      · exact fun _ ↦ rfl
      · exact fun hdeep' ↦ absurd hdeep' hdeep
  · intro number task htask hconsume hheld hdeep
    exact (sifted run htask hconsume).held _ hheld (hunreadable.mpr hdeep)
  · intro number task htask hconsume fate hentry
    exact ((sifted run htask hconsume).settled _ fate hentry).trans hunreadable

/-- A send that the broker has acknowledged. -/
def sender (number : Nat) (payload : Bytes) : Task :=
  { number, purpose := .send payload, phase := .finished (.ok ()) }

/-- A consumer that is about to pop. -/
def popper (number connection : Nat) : Task :=
  { number, purpose := .consume, phase := .popping, connection := some connection }

/-- Two sends are acknowledged, and these consumers have begun. -/
def queued (first second : Bytes) (consumers : List Task) : Transport where
  pool := { capacity := 4, created := 2, idle := { items := [some 0, some 1], permits := 2 } }
  list := [first, second]
  appended := [(1, first), (2, second)]
  tasks := [sender 1 first, sender 2 second] ++ consumers

theorem exists_run_queued (first second : Bytes) : ∃ history,
    Run step? (ofSettings {} []) history (queued first second [popper 3 2, popper 4 3]) := by
  have hsends : (Run.follow? step? (ofSettings {} [])
      [.send 1 first, .look 1, .dialled 1 (.connected 0), .pushed 1 true,
        .send 2 second, .look 2, .dialled 2 (.connected 1), .pushed 2 true]).map Prod.snd =
      some (queued first second []) := rfl
  have hconsumers : (Run.follow? step? (queued first second [])
      [.consume 3, .look 3, .dialled 3 (.connected 2),
        .consume 4, .look 4, .dialled 4 (.connected 3)]).map Prod.snd =
      some (queued first second [popper 3 2, popper 4 3]) := rfl
  obtain ⟨earlier, run⟩ := Run.exists_of_follow? hsends
  obtain ⟨later, run'⟩ := Run.exists_of_follow? hconsumers
  exact ⟨earlier ++ later, run.append run'⟩

/-- Of two payloads sent, one reaches a handler and the other is dropped. -/
theorem exists_run_sifted {readable unreadable : Bytes} (hreadable : ¬ IsUnreadable readable)
    (hunreadable : IsUnreadable unreadable) : ∃ history transport,
      Run step? (ofSettings {} []) history transport ∧
      transport.task? 1 = some (sender 1 readable) ∧
      transport.task? 2 = some (sender 2 unreadable) ∧
      transport.appended = [(1, readable), (2, unreadable)] ∧ transport.list = [] ∧
      transport.phase? 3 = some (.handling readable) ∧
      (transport.task? 4).map Task.settled = some [(unreadable, .dropped)] := by
  obtain ⟨history, run⟩ := exists_run_queued readable unreadable
  have hpopper : (queued readable unreadable [popper 3 2, popper 4 3]).task? 3 =
      some (popper 3 2) := rfl
  have hfirst := step?_popEnded hpopper rfl nofun rfl
  rw [receive_of_readable hreadable] at hfirst
  have run := run.step hfirst
  generalize hbetween : Transport.put _ _ = between at run
  have hother : between.task? 4 = some (popper 4 3) := by rw [← hbetween]; rfl
  have hlist : between.list = [unreadable] := by rw [← hbetween]; rfl
  have hsecond := step?_popEnded hother rfl nofun hlist
  rw [receive_of_unreadable hunreadable, ← hbetween] at hsecond
  rw [← hbetween] at run
  exact ⟨_, _, run.step hsecond, rfl, rfl, rfl, rfl, rfl, rfl⟩

/-- Arrays inside each other, this many. -/
def nestedArrays : Nat → Json.Value
  | 0 => .null
  | depth + 1 =>
    ⟨.array [(nestedArrays depth).tree], by
      simp [Json.Tree.Canonical, Json.Tree.ItemsCanonical, (nestedArrays depth).canonical]⟩

def nestedCall : Record where
  time := ⟨1700000000, 0⟩
  level := .info
  message := "nested"
  fields := .ofList [("nested", .plain (nestedArrays 127))]

theorem floatsReadBack_of_numbers {message : Message}
    (hall : ∀ n ∈ message.toTree.numbers, n.ReadsBack) : message.FloatsReadBack :=
  fun _ _ hx ↦ hall _ hx

theorem backlogCall_readable :
    backlogCall.time.InRange ∧ (workerEncoder.encode backlogCall).FloatsReadBack ∧
      ¬ (workerEncoder.encode backlogCall).NestsTooDeep := by
  refine ⟨by decide, floatsReadBack_of_numbers (by decide +kernel), ?_⟩
  rw [Message.nestsTooDeep_iff]
  decide +kernel

theorem nestedCall_unreadable :
    nestedCall.time.InRange ∧ (workerEncoder.encode nestedCall).FloatsReadBack ∧
      (workerEncoder.encode nestedCall).NestsTooDeep := by
  refine ⟨by decide, floatsReadBack_of_numbers (by decide +kernel), ?_⟩
  rw [Message.nestsTooDeep_iff]
  decide +kernel

/-- One of two calls is with a handler, and the other, sent in the same way, is dropped. -/
theorem exists_run_mixedCalls : ∃ history transport,
    Run step? (ofSettings {} []) history transport ∧
      transport.task? 1 = some (sender 1 (Payload.forQueue (workerEncoder.encode backlogCall))) ∧
      transport.task? 2 = some (sender 2 (Payload.forQueue (workerEncoder.encode nestedCall))) ∧
      transport.phase? 3 =
        some (.handling (Payload.forQueue (workerEncoder.encode backlogCall))) ∧
      (transport.task? 4).map Task.settled =
        some [(Payload.forQueue (workerEncoder.encode nestedCall), .dropped)] := by
  obtain ⟨hrange, hreads, hflat⟩ := backlogCall_readable
  obtain ⟨hrange', hreads', hdeep⟩ := nestedCall_unreadable
  obtain ⟨history, transport, run, hone, htwo, -, -, hthree, hfour⟩ := exists_run_sifted
    (mt (isUnreadable_forQueue_iff hreads hrange).mp hflat)
    ((isUnreadable_forQueue_iff hreads' hrange').mpr hdeep)
  exact ⟨history, transport, run, hone, htwo, hthree, hfour⟩

theorem handed_of_mixedCalls : ∃ history transport,
    Run step? (ofSettings {} []) history transport ∧
      backlogCall.time.InRange ∧ (workerEncoder.encode backlogCall).FloatsReadBack ∧
      nestedCall.time.InRange ∧ (workerEncoder.encode nestedCall).FloatsReadBack ∧
      transport.phase? 3 =
        some (.handling (Payload.forQueue (workerEncoder.encode backlogCall))) ∧
      (transport.task? 4).map Task.settled =
        some [(Payload.forQueue (workerEncoder.encode nestedCall), .dropped)] ∧
      Handed (workerEncoder.encode backlogCall) transport ∧
      Handed (workerEncoder.encode nestedCall) transport := by
  obtain ⟨hrange, hreads, -⟩ := backlogCall_readable
  obtain ⟨hrange', hreads', -⟩ := nestedCall_unreadable
  obtain ⟨history, transport, run, -, -, hthree, hfour⟩ := exists_run_mixedCalls
  exact ⟨history, transport, run, hrange, hreads, hrange', hreads', hthree, hfour,
    handed_of_run run workerEncoder backlogCall hrange hreads,
    handed_of_run run workerEncoder nestedCall hrange' hreads'⟩

/-- A message is sent without a fault, and what was sent is dropped by the consumer that pops it. -/
theorem dropped_of_sent : ∃ (encoder : Encoder) (record : Record)
    (history : List (Transport × Step)) (transport : Transport),
    record.time.InRange ∧ (encoder.encode record).FloatsReadBack ∧
      Run step? (ofSettings {} []) history transport ∧
      (∃ task, transport.task? 2 = some task ∧
        task.purpose = .send (Payload.forQueue (encoder.encode record)) ∧
        task.phase = .finished (.ok ())) ∧
      Payload.read (Payload.forQueue (encoder.encode record)) =
        .error (.layout (.json .malformed)) ∧
      (transport.task? 4).map Task.settled =
        some [(Payload.forQueue (encoder.encode record), .dropped)] := by
  obtain ⟨hrange, hreads, hdeep⟩ := nestedCall_unreadable
  obtain ⟨history, transport, run, -, htwo, -, hfour⟩ := exists_run_mixedCalls
  exact ⟨workerEncoder, nestedCall, history, transport, hrange, hreads, run,
    ⟨_, htwo, rfl, rfl⟩, Payload.read_forQueue_of_deep hreads hdeep, hfour⟩

end Transport

end Broker

end GelfCourier
