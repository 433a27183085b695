import GelfCourier.Proofs.Broker.Custody
import GelfCourier.Proofs.Broker.Slots

/-!
How sends end. A send that is over was acknowledged once, with its payload, or it was refused
because the transport is closed, and then the broker has taken nothing in.
-/

set_option autoImplicit false

namespace GelfCourier.Broker

open Transport (Step)

namespace Transport

variable {settings : BrokerSettings} {list : List Bytes} {history : List (Transport × Step)}
  {transport : Transport} {number : Nat} {task next : Task} {step : Step} {pool : Pool Nat}
  {payload : Bytes}

/-- A send with what the broker has acknowledged to it. -/
inductive Sending (payload : Bytes) (taken : List Bytes) (task : Task) : Prop where
  | underway (phase : PushPhase) (hphase : task.phase = .push payload phase) (htaken : taken = [])
  | accepted (hphase : task.phase = .finished (.ok ())) (htaken : taken = [payload])
  | refused (hphase : task.phase = .finished (.error .closed)) (htaken : taken = [])

theorem Sending.turn {taken : List Bytes} (h : Sending payload taken task)
    (hpurpose : task.purpose = .send payload) (hturn : transport.Turn task step pool next)
    (hknown : transport.task? task.number = some task) :
    Sending payload
      (taken ++ (Event.acknowledged.payload? (transport.event? task.number step)).toList) next := by
  have hseen : transport.phase? task.number = some task.phase := by rw [phase?, hknown]; rfl
  have hbusy := hturn.isFinished_eq
  cases h with
  | accepted hphase htaken =>
    rw [hphase] at hbusy
    cases hbusy
  | refused hphase htaken =>
    rw [hphase] at hbusy
    cases hbusy
  | underway phase hphase htaken =>
    rw [hphase] at hseen
    have hpayload : ∀ other phase', task.phase = .push other phase' → other = payload := by
      intro other phase' hother
      rw [hphase] at hother
      cases hother
      rfl
    cases hturn with
    | aside haside =>
      cases haside with
      | giveUp other sent hother hclosed hsent =>
        exact .refused rfl (by simp [event?, Event.payload?, Step.task?, htaken])
      | retry other hother =>
        rw [hpayload other _ hother]
        exact .underway .looking rfl (by simp [event?, Event.payload?, Step.task?, htaken])
      | _ => simp_all
    | claim other hother hopen =>
      rw [hpayload other _ hother]
      exact .underway .claiming rfl (by simp [event?, Event.payload?, htaken])
    | hold other hother hready hobject =>
      rw [hpayload other _ hother]
      exact .underway .pushing rfl (by simp [event?, Event.payload?, htaken])
    | fill other hother hready hvacant =>
      exact .underway phase hphase (by simp [event?, Event.payload?, htaken])
    | connect other connection hother hmaking =>
      rw [hpayload other _ hother]
      exact .underway .pushing rfl (by simp [event?, Event.payload?, htaken])
    | refuse other hother hmaking =>
      exact .underway phase hphase (by simp [event?, Event.payload?, hseen, htaken])
    | send other sent hother hsent =>
      rw [hphase] at hother
      cases hother
      exact .accepted rfl (by simp [event?, Event.payload?, Step.task?, hseen, htaken])
    | giveBack other hother hconsume =>
      rw [hpurpose] at hconsume
      cases hconsume
    | fail other hother =>
      rw [hpayload other _ hother]
      rw [hphase] at hother
      cases hother
      exact .underway .pausing rfl (by simp [event?, Event.payload?, hseen, htaken])

/-- The result of a send that is over says what was taken in. -/
theorem Sending.of_finished {taken : List Bytes} {result : Except TransportFault Unit}
    (h : Sending payload taken task) (hresult : task.phase = .finished result) :
    (result = .ok () ∧ taken = [payload]) ∨ (result = .error .closed ∧ taken = []) := by
  cases h with
  | underway phase hphase htaken =>
    rw [hphase] at hresult
    cases hresult
  | accepted hphase htaken =>
    rw [hphase] at hresult
    cases hresult
    exact .inl ⟨rfl, htaken⟩
  | refused hphase htaken =>
    rw [hphase] at hresult
    cases hresult
    exact .inr ⟨rfl, htaken⟩

theorem sending (run : Run step? (ofSettings settings list) history transport)
    (htask : transport.task? number = some task) (hpurpose : task.purpose = .send payload) :
    Sending payload (record number .acknowledged history) task := by
  induction run generalizing task with
  | start => cases htask
  | @step history before after step run possible ih =>
    rw [record_append_singleton]
    rcases task_of_step? possible htask with
      ⟨hfresh, purpose, rfl⟩ | ⟨hknown, hother⟩ | ⟨old, hknown, rfl, hturn⟩
    · rw [record_eq_nil run hfresh, event?_of_unknown hfresh]
      cases purpose with
      | send sent =>
        cases hpurpose
        exact .underway .looking rfl rfl
      | consume => cases hpurpose
    · rw [event?_of_ne hother]
      simpa [Event.payload?] using ih hknown hpurpose
    · have hsends := hturn.purpose_eq ▸ hpurpose
      exact (ih hknown hsends).turn hsends hturn hknown

theorem appended_eq (run : Run step? (ofSettings settings list) history transport) (number : Nat) :
    (transport.appended.filter fun push ↦ push.1 = number) =
      (record number .acknowledged history).map fun payload ↦ (number, payload) := by
  rw [← appended_eq_record run, List.map_map]
  refine (List.map_id _).symm.trans (List.map_congr_left fun push hpush ↦ ?_)
  have hnumber : push.1 = number := by simpa using (List.mem_filter.mp hpush).2
  rw [← hnumber]
  rfl

/-- A send that is over was acknowledged once, or it was refused and nothing was taken in. -/
theorem appended_of_finished {result : Except TransportFault Unit}
    (run : Run step? (ofSettings settings list) history transport)
    (htask : transport.task? number = some task) (hpurpose : task.purpose = .send payload)
    (hresult : task.phase = .finished result) :
    (result = .ok () ∧
        (transport.appended.filter fun push ↦ push.1 = number) = [(number, payload)]) ∨
      (result = .error .closed ∧ (transport.appended.filter fun push ↦ push.1 = number) = []) := by
  rw [appended_eq run]
  rcases (sending run htask hpurpose).of_finished hresult with ⟨hok, htaken⟩ | ⟨hclosed, htaken⟩
  · exact .inl ⟨hok, by rw [htaken]; rfl⟩
  · exact .inr ⟨hclosed, by rw [htaken]; rfl⟩

end Transport

end GelfCourier.Broker
