import GelfCourier.Proofs.Broker.Custody

/-!
What reaches the broker's list. A step that makes the list longer is a push that the broker
acknowledges, or somebody else's; so what a task has put there is what was acknowledged to it.
-/

set_option autoImplicit false

namespace GelfCourier.Broker

open Transport (Step)

namespace Transport

variable {transport after first : Transport} {history : List (Transport × Step)} {task : Task}
  {step : Step} {number : Nat} {payload : Bytes}

/-- What a step puts at the end of the broker's list. -/
def added (transport : Transport) (step : Step) : List Bytes :=
  match transport.step? step with
  | some after => after.list.drop transport.list.length
  | none => []

/-- What the steps of a task have put at the end of the broker's list in a run. -/
def copies (number : Nat) (history : List (Transport × Step)) : List Bytes :=
  (history.filter fun entry ↦ entry.2.task? = some number).flatMap fun entry ↦
    added entry.1 entry.2

theorem list_look (transport : Transport) (task : Task) :
    (transport.look task).list = transport.list := by
  unfold look
  split
  · split
    · split <;> rfl
    · rfl
  · split <;> rfl
  · rfl

theorem list_take (transport : Transport) (task : Task) (payload : Bytes) :
    (transport.take task payload).list = transport.list := by
  unfold take
  dsimp only
  split <;> rfl

theorem list_dialled (transport : Transport) (task : Task) (ending : DialEnd) :
    (transport.dialled task ending).list = transport.list := by
  unfold dialled
  split <;> rfl

theorem list_pushed (acknowledged : Bool)
    (hphase : task.phase = .push payload .pushing ∨ task.phase = .returning payload) :
    (transport.pushed task acknowledged).list =
      transport.list ++ if acknowledged then [payload] else [] := by
  unfold pushed
  rcases hphase with hphase | hphase
  · rw [hphase]
    cases acknowledged with
    | true => dsimp only; split <;> rfl
    | false => exact (List.append_nil _).symm
  · rw [hphase]
    cases acknowledged with
    | true => rfl
    | false => exact (List.append_nil _).symm

theorem list_receive (transport : Transport) (task : Task) (payload : Bytes) :
    (transport.receive task payload).list = transport.list := by
  unfold receive
  dsimp only
  split
  · rfl
  · split <;> rfl

/-- A pop takes at most the front away. -/
theorem length_list_popEnded (transport : Transport) (task : Task) (ending : PopEnd) :
    (transport.popEnded task ending).list.length ≤ transport.list.length := by
  unfold popEnded
  split
  · next payload rest hlist =>
    rw [list_receive, hlist]
    exact Nat.le_succ _
  · exact Nat.le_refl _
  · exact Nat.le_refl _
  · exact Nat.le_refl _

theorem list_handled (transport : Transport) (task : Task) (payload : Bytes) (succeeded : Bool) :
    (transport.handled task payload succeeded).list = transport.list := by
  cases succeeded <;> rfl

theorem list_rested (transport : Transport) (task : Task) :
    (transport.rested task).list = transport.list := by
  unfold rested
  split <;> rfl

/-- Nothing but a push that succeeds is acknowledged. -/
theorem acknowledged_eq_none (transport : Transport) (number : Nat)
    (hother : ∀ taken, step ≠ .pushed taken true) :
    Event.acknowledged.payload? (transport.event? number step) = none := by
  unfold event?
  split
  · split
    · cases transport.list.head? <;> rfl
    · rfl
    · exact (hother _ rfl).elim
    · exact (hother _ rfl).elim
    · rfl
    · rfl
    · rfl
  · rfl

/-- Nothing but a push that succeeds makes the list longer. -/
theorem length_list_of_stepOf? (hstep : step.task? = some number)
    (hother : ∀ taken, step ≠ .pushed taken true) (h : transport.stepOf? task step = some after) :
    after.list.length ≤ transport.list.length := by
  have hkept : ∀ {kept : Transport}, kept.list = transport.list →
      kept.list.length ≤ transport.list.length := fun hlist ↦
    Nat.le_of_eq (congrArg List.length hlist)
  cases step with
  | send _ _ => cases hstep
  | consume _ => cases hstep
  | close => cases hstep
  | deposit _ => cases hstep
  | withdraw => cases hstep
  | look _ =>
    simp only [stepOf?] at h
    split at h <;> cases h <;> exact hkept (list_look _ _)
  | take _ =>
    simp only [stepOf?] at h
    split at h
    · split at h <;> cases h
      exact hkept (list_take _ _ _)
    · cases h
  | dialled _ ending =>
    simp only [stepOf?] at h
    split at h <;> cases h
    exact hkept (list_dialled _ _ _)
  | pushed _ acknowledged =>
    cases acknowledged with
    | true => exact (hother _ rfl).elim
    | false =>
      simp only [stepOf?] at h
      split at h
      · next hphase =>
        cases h
        exact hkept ((list_pushed false (.inl hphase)).trans (List.append_nil _))
      · next hphase =>
        cases h
        exact hkept ((list_pushed false (.inr hphase)).trans (List.append_nil _))
      · cases h
  | popEnded _ ending =>
    simp only [stepOf?] at h
    split at h
    · split at h <;> cases h
      exact length_list_popEnded _ _ _
    · cases h
  | handled _ succeeded =>
    simp only [stepOf?] at h
    split at h <;> cases h
    exact hkept (list_handled _ _ _ _)
  | rested _ =>
    simp only [stepOf?] at h
    split at h <;> cases h <;> exact hkept (list_rested _ _)

/-- A step of a task adds to the list what the broker acknowledges to the task in it. -/
theorem added_eq (possible : transport.step? step = some after) (hstep : step.task? = some number) :
    added transport step =
      (Event.acknowledged.payload? (transport.event? number step)).toList := by
  rcases step?_eq possible with ⟨hnone, -⟩ | ⟨task, htaken, hknown, hstepOf⟩
  · rw [hnone] at hstep
    cases hstep
  · have hnumber : number = task.number := Option.some.inj (hstep.symm.trans htaken)
    subst hnumber
    unfold added
    rw [possible]
    dsimp only
    by_cases hpushed : step = .pushed task.number true
    · subst hpushed
      have hseen : transport.phase? task.number = some task.phase := by rw [phase?, hknown]; rfl
      simp only [stepOf?] at hstepOf
      split at hstepOf
      · next payload hphase =>
        cases hstepOf
        rw [list_pushed true (.inl hphase), if_pos rfl, List.drop_left]
        simp [event?, Event.payload?, Step.task?, hseen, hphase]
      · next payload hphase =>
        cases hstepOf
        rw [list_pushed true (.inr hphase), if_pos rfl, List.drop_left]
        simp [event?, Event.payload?, Step.task?, hseen, hphase]
      · cases hstepOf
    · have hother : ∀ taken, step ≠ .pushed taken true := by
        rintro taken rfl
        obtain rfl : taken = task.number := Option.some.inj htaken
        exact hpushed rfl
      rw [acknowledged_eq_none transport task.number hother,
        List.drop_eq_nil_of_le (length_list_of_stepOf? hstep hother hstepOf)]
      rfl

theorem copies_append_singleton (number : Nat) (history : List (Transport × Step))
    (transport : Transport) (step : Step) :
    copies number (history ++ [(transport, step)]) =
      copies number history ++ if step.task? = some number then added transport step else [] := by
  unfold copies
  rw [List.filter_append, List.flatMap_append]
  by_cases hstep : step.task? = some number <;> simp [hstep]

/-- What a task has added to the list is what the broker has acknowledged to it. -/
theorem copies_eq_record (run : Run step? first history transport) (number : Nat) :
    copies number history = record number .acknowledged history := by
  induction run with
  | start => rfl
  | @step history before after step run possible ih =>
    rw [copies_append_singleton, record_append_singleton, ih]
    by_cases hstep : step.task? = some number
    · rw [if_pos hstep, added_eq possible hstep]
    · rw [if_neg hstep, event?_of_ne hstep]
      rfl

end Transport

end GelfCourier.Broker
