import Mathlib.Data.List.Infix
import GelfCourier.Proofs.Stream.Walks

/-!
A send without a connection dials, and rests after each refusal, until a dial is answered, its
budget is spent, or it notices a close. Its acts are then refusals, each with its pause, and one dial
more, so that the budget and the first answer say after how many dials it ends.
-/

set_option autoImplicit false

namespace GelfCourier.Stream

/-! ### Dials in a row -/

/-- Dials that are refused, each with the pause after it. -/
def refusals (faults : List IoFault) : List Act :=
  faults.flatMap fun fault ↦ [.dialled (.refused fault), .rested]

/-- Dials with these answers, and a pause between each two. -/
def redials (answers : List DialEnd) : List Act :=
  (answers.map Act.dialled).intersperse .rested

def Act.answer? : Act → Option DialEnd
  | .dialled ending => some ending
  | _ => none

/-- The answers to dials, in order. -/
def answers (acts : List Act) : List DialEnd :=
  acts.filterMap Act.answer?

section Lists

variable (faults : List IoFault) (fault : IoFault) (answer : DialEnd) (rest : List DialEnd)

theorem refusals_append_singleton :
    refusals (faults ++ [fault]) = refusals faults ++ [.dialled (.refused fault)] ++ [.rested] := by
  unfold refusals
  rw [List.flatMap_append, List.append_assoc]
  rfl

theorem answers_append (acts acts' : List Act) :
    answers (acts ++ acts') = answers acts ++ answers acts' :=
  List.filterMap_append

theorem answers_refusals : answers (refusals faults) = faults.map .refused := by
  induction faults with
  | nil => rfl
  | cons fault faults ih =>
    unfold refusals at ih ⊢
    rw [List.flatMap_cons, answers_append, ih]
    rfl

theorem answers_refused :
    answers (refusals faults ++ [.dialled (.refused fault)]) =
      (faults ++ [fault]).map .refused := by
  rw [answers_append, answers_refusals, List.map_append]
  rfl

theorem redials_refused :
    redials (faults.map .refused ++ answer :: rest) =
      refusals faults ++ redials (answer :: rest) := by
  induction faults with
  | nil => rfl
  | cons fault faults ih =>
    have hcons (answers : List DialEnd) (hanswers : answers ≠ []) :
        redials (.refused fault :: answers) =
          [.dialled (.refused fault), .rested] ++ redials answers := by
      cases answers with
      | nil => exact (hanswers rfl).elim
      | cons next answers => rfl
    rw [List.map_cons, List.cons_append, hcons _ (by simp), ih]
    unfold refusals
    rw [List.flatMap_cons, List.append_assoc]

theorem redials_cons_ne_nil : redials (answer :: rest) ≠ [] := by
  cases rest <;> exact List.cons_ne_nil _ _

end Lists

/-! ### A search for a connection -/

/-- The attempt that a search counts. -/
def Phase.attempt? : Phase → Option Nat
  | .dialing attempt => some attempt
  | .pausing attempt => some attempt
  | _ => none

/-- A search under way: no dial has been answered, and there is budget for the next one. -/
inductive Redialing (policy : RedialPolicy) : List Act → Phase → Prop where
  | dialing (faults : List IoFault) (hbudget : ∀ most ∈ policy.budget?, faults.length < most) :
      Redialing policy (refusals faults) (.dialing (faults.length + 1))
  | pausing (faults : List IoFault) (fault : IoFault)
      (hbudget : ∀ most ∈ policy.budget?, faults.length + 1 < most) :
      Redialing policy (refusals faults ++ [.dialled (.refused fault)])
        (.pausing (faults.length + 1))

/-- The end of a search, and what it leaves. -/
inductive RedialEnds (address : String) (policy : RedialPolicy) (slot : Option Nat) (made : Nat) :
    List Act → View → Prop where
  | connected (faults : List IoFault) (hbudget : ∀ most ∈ policy.budget?, faults.length < most) :
      RedialEnds address policy slot made (refusals faults ++ [.dialled .connected])
        ⟨.rewriting made, slot, made + 1⟩
  | unusable (faults : List IoFault) (fault : IoFault)
      (hbudget : ∀ most ∈ policy.budget?, faults.length < most) :
      RedialEnds address policy slot made (refusals faults ++ [.dialled (.unusable fault)])
        ⟨.finished (.error (.io fault)), slot, made + 1⟩
  | exhausted (faults : List IoFault) (fault : IoFault)
      (hmost : policy.budget? = some (faults.length + 1)) :
      RedialEnds address policy slot made (refusals faults ++ [.dialled (.refused fault)])
        ⟨.finished (.error (.redialExhausted address (faults.length + 1) fault)), slot, made⟩
  | closed (acts : List Act) (phase : Phase) (hredialing : Redialing policy acts phase) :
      RedialEnds address policy slot made (acts ++ [.noticed])
        ⟨.finished (.error .closed), slot, made⟩

theorem one_le_of_budget? {policy : RedialPolicy} {most : Nat}
    (hmost : policy.budget? = some most) : 1 ≤ most := by
  obtain ⟨allowed, -, rfl⟩ := Option.map_eq_some_iff.mp hmost
  exact Nat.le_max_right _ _

theorem lt_size_of_budget? {policy : RedialPolicy} {most : Nat}
    (hmost : policy.budget? = some most) : most < UInt32.size := by
  obtain ⟨allowed, -, rfl⟩ := Option.map_eq_some_iff.mp hmost
  exact Nat.max_lt.mpr ⟨allowed.toNat_lt, by decide⟩

namespace Redialing

variable {address : String} {policy : RedialPolicy} {acts : List Act} {phase : Phase}

theorem start : Redialing policy [] (.dialing 1) :=
  .dialing [] fun _ hmost ↦ one_le_of_budget? hmost

theorem isDialing (h : Redialing policy acts phase) : phase.isDialing = true := by
  cases h <;> rfl

theorem attempt_le {attempt : Nat} (h : Redialing policy acts phase)
    (hattempt : phase.attempt? = some attempt) :
    attempt ≤ (answers acts).length + 1 ∧ ∀ most ∈ policy.budget?, attempt ≤ most := by
  cases h with
  | dialing faults hbudget =>
    cases hattempt
    rw [answers_refusals, List.length_map]
    exact ⟨le_rfl, hbudget⟩
  | pausing faults fault hbudget =>
    cases hattempt
    rw [answers_append, answers_refusals, List.length_append, List.length_map]
    exact ⟨Nat.le_add_right _ _, fun most hmost ↦ (hbudget most hmost).le⟩

/-- One more act: the search goes on, or this is its end. -/
theorem step {view next : View} {act : Act} (h : Redialing policy acts view.phase)
    (works : Works address policy view act next) :
    (Redialing policy (acts ++ [act]) next.phase ∧ next.slot = view.slot ∧
        next.connections = view.connections) ∨
      RedialEnds address policy view.slot view.connections (acts ++ [act]) next := by
  cases works with
  | connected attempt slot made =>
    cases h with
    | dialing faults hbudget => exact .inr (.connected faults hbudget)
  | unusable attempt slot made fault =>
    cases h with
    | dialing faults hbudget => exact .inr (.unusable faults fault hbudget)
  | refused attempt slot made fault hnext =>
    cases h with
    | dialing faults hbudget => exact .inl ⟨.pausing faults fault hnext, rfl, rfl⟩
  | exhausted attempt slot made most fault hmost hspent =>
    cases h with
    | dialing faults hbudget =>
      -- The budget was not spent before, and it is now.
      obtain rfl : most = faults.length + 1 := Nat.le_antisymm hspent (hbudget most hmost)
      exact .inr (.exhausted faults fault hmost)
  | rested attempt slot made =>
    cases h with
    | pausing faults fault hbudget =>
      have hlength : (faults ++ [fault]).length = faults.length + 1 := List.length_append
      have hnext : Redialing policy (refusals (faults ++ [fault]))
          (.dialing ((faults ++ [fault]).length + 1)) := .dialing _ (by rwa [hlength])
      rw [hlength, refusals_append_singleton] at hnext
      exact .inl ⟨hnext, rfl, rfl⟩
  | noticed phase slot made hdialing => exact .inr (.closed acts phase h)
  | _ => cases h

end Redialing

/-! ### Answers that are given beforehand -/

def DialEnd.isRefused : DialEnd → Bool
  | .refused _ => true
  | _ => false

/-- The first dial that is not refused, if there is one; dials are counted from one. -/
def IsFirst (reply : Nat → DialEnd) : Option Nat → Prop
  | some first => 1 ≤ first ∧ (reply first).isRefused = false ∧
    ∀ dial, 1 ≤ dial → dial < first → (reply dial).isRefused = true
  | none => ∀ dial, 1 ≤ dial → (reply dial).isRefused = true

/-- The dials that a search comes to, if it comes to an end. -/
def dials? (most? first? : Option Nat) : Option Nat :=
  match most?, first? with
  | some most, some first => some (min first most)
  | some most, none => some most
  | none, _ => first?

/-- The answers to this many dials. -/
def answersTo (reply : Nat → DialEnd) (dials : Nat) : List DialEnd :=
  (List.range' 1 dials).map reply

/-- The dials so far were answered in this way. -/
def Follows (reply : Nat → DialEnd) (given : List DialEnd) : Prop :=
  answersTo reply given.length = given

/-- What a search comes to with its last dial. -/
inductive RedialResult (address : String) (policy : RedialPolicy) (made : Nat)
    (reply : Nat → DialEnd) (first? : Option Nat) (last : Nat) : Phase → Prop where
  | connected (hfirst : first? = some last) (hanswer : reply last = .connected) :
      RedialResult address policy made reply first? last (.rewriting made)
  /-- The first connection that is made cannot be set up. -/
  | unusable (fault : IoFault) (hfirst : first? = some last)
      (hanswer : reply last = .unusable fault) :
      RedialResult address policy made reply first? last (.finished (.error (.io fault)))
  | exhausted (fault : IoFault) (hmost : policy.budget? = some last)
      (hbeyond : ∀ first ∈ first?, last < first) (hanswer : reply last = .refused fault) :
      RedialResult address policy made reply first? last
        (.finished (.error (.redialExhausted address last fault)))

section Given

variable {address : String} {policy : RedialPolicy} {reply : Nat → DialEnd} {first? : Option Nat}
  {slot : Option Nat} {made last : Nat} {acts : List Act} {phase : Phase} {view : View}
  {faults : List IoFault} {answer : DialEnd}

theorem length_answersTo (reply : Nat → DialEnd) (dials : Nat) :
    (answersTo reply dials).length = dials := by
  rw [answersTo, List.length_map, List.length_range']

theorem answersTo_succ (reply : Nat → DialEnd) (dials : Nat) :
    answersTo reply (dials + 1) = answersTo reply dials ++ [reply (dials + 1)] := by
  rw [answersTo, List.range'_1_concat, List.map_append, Nat.add_comm 1]
  rfl

theorem answersTo_append (reply : Nat → DialEnd) (dials more : Nat) :
    ∃ rest, answersTo reply (dials + more) = answersTo reply dials ++ rest := by
  induction more with
  | zero => exact ⟨[], (List.append_nil _).symm⟩
  | succ more ih =>
    obtain ⟨rest, hrest⟩ := ih
    exact ⟨rest ++ [reply (dials + more + 1)], by
      rw [← Nat.add_assoc, answersTo_succ, hrest, List.append_assoc]⟩

theorem answersTo_succ_append (reply : Nat → DialEnd) {dials : Nat} (hless : dials < last) :
    ∃ rest, answersTo reply last = answersTo reply dials ++ reply (dials + 1) :: rest := by
  obtain ⟨more, rfl⟩ := Nat.exists_eq_add_of_lt hless
  obtain ⟨rest, hrest⟩ := answersTo_append reply (dials + 1) more
  refine ⟨rest, ?_⟩
  rw [Nat.add_right_comm, hrest, answersTo_succ, List.append_assoc]
  rfl

theorem Follows.concat {given : List DialEnd} (hfollows : Follows reply given) :
    Follows reply (given ++ [reply (given.length + 1)]) := by
  unfold Follows at hfollows ⊢
  rw [List.length_append, List.length_singleton, answersTo_succ, hfollows]

theorem Follows.of_concat {given : List DialEnd} (hfollows : Follows reply (given ++ [answer])) :
    Follows reply given ∧ reply (given.length + 1) = answer := by
  unfold Follows at hfollows
  rw [List.length_append, List.length_singleton, answersTo_succ] at hfollows
  obtain ⟨hbefore, hlast⟩ := List.append_inj' hfollows rfl
  exact ⟨hbefore, List.singleton_inj.mp hlast⟩

theorem isRefused_of_follows (hrefused : Follows reply (faults.map .refused))
    (dial : Nat) (hone : 1 ≤ dial) (hdial : dial ≤ faults.length) :
    (reply dial).isRefused = true := by
  have hmem : reply dial ∈ answersTo reply (faults.map DialEnd.refused).length := by
    rw [List.length_map]
    exact List.mem_map.mpr ⟨dial, List.mem_range'_1.mpr ⟨hone, by omega⟩, rfl⟩
  unfold Follows at hrefused
  rw [hrefused] at hmem
  obtain ⟨fault, -, hsame⟩ := List.mem_map.mp hmem
  rw [← hsame]
  rfl

/-- The first answer comes after all refusals. -/
theorem length_lt_first (hrefused : Follows reply (faults.map .refused))
    (hfirst : IsFirst reply first?) (first : Nat) (hsome : first ∈ first?) :
    faults.length < first := by
  obtain rfl : first? = some first := hsome
  obtain ⟨hone, hanswered, -⟩ := hfirst
  by_contra hle
  have hdial := isRefused_of_follows hrefused first hone (Nat.le_of_not_lt hle)
  rw [hanswered] at hdial
  cases hdial

theorem first?_eq (hrefused : Follows reply (faults.map .refused))
    (hfirst : IsFirst reply first?) (hanswered : (reply (faults.length + 1)).isRefused = false) :
    first? = some (faults.length + 1) := by
  have hnot (hrefusal : (reply (faults.length + 1)).isRefused = true) : False := by
    rw [hanswered] at hrefusal
    cases hrefusal
  cases first? with
  | none => exact (hnot (hfirst _ (Nat.le_add_left 1 _))).elim
  | some first =>
    have hbefore := length_lt_first hrefused hfirst first rfl
    obtain ⟨-, -, hearlier⟩ := hfirst
    have hle : first ≤ faults.length + 1 := by
      by_contra hlater
      exact hnot (hearlier _ (Nat.le_add_left 1 _) (Nat.lt_of_not_le hlater))
    rw [Nat.le_antisymm hle hbefore]

theorem length_lt_dials (hrefused : Follows reply (faults.map .refused))
    (hfirst : IsFirst reply first?) (hbudget : ∀ most ∈ policy.budget?, faults.length < most)
    (hlast : dials? policy.budget? first? = some last) : faults.length < last := by
  have hbefore := length_lt_first hrefused hfirst
  cases hmost : policy.budget? with
  | none =>
    rw [hmost] at hlast
    exact hbefore last hlast
  | some most =>
    have hless := hbudget most hmost
    rw [hmost] at hlast
    cases first? with
    | none =>
      cases hlast
      exact hless
    | some first =>
      cases hlast
      exact Nat.lt_min.mpr ⟨hbefore first rfl, hless⟩

theorem redials_answersTo_eq (hrefused : Follows reply (faults.map .refused))
    (hless : faults.length < last) :
    ∃ more, more ≠ [] ∧ redials (answersTo reply last) = refusals faults ++ more := by
  obtain ⟨rest, hrest⟩ := answersTo_succ_append reply hless
  unfold Follows at hrefused
  rw [List.length_map] at hrefused
  exact ⟨_, redials_cons_ne_nil _ rest, by rw [hrest, hrefused, redials_refused]⟩

/-- A search under way has acts before it. -/
theorem Redialing.redials_eq (h : Redialing policy acts phase)
    (hfollows : Follows reply (answers acts)) (hfirst : IsFirst reply first?)
    (hlast : dials? policy.budget? first? = some last) :
    ∃ more, more ≠ [] ∧ redials (answersTo reply last) = acts ++ more := by
  cases h with
  | dialing faults hbudget =>
    rw [answers_refusals] at hfollows
    exact redials_answersTo_eq hfollows (length_lt_dials hfollows hfirst hbudget hlast)
  | pausing faults fault hbudget =>
    have hlength : (faults ++ [fault]).length = faults.length + 1 := List.length_append
    rw [answers_refused] at hfollows
    have hless := length_lt_dials hfollows hfirst (by rwa [hlength]) hlast
    obtain ⟨more, -, hmore⟩ := redials_answersTo_eq hfollows hless
    rw [refusals_append_singleton, List.append_assoc] at hmore
    exact ⟨_, List.cons_ne_nil _ more, hmore⟩

theorem dials?_of_budget {dials : Nat} (hbudget : ∀ most ∈ policy.budget?, dials < most) :
    dials? policy.budget? (some (dials + 1)) = some (dials + 1) := by
  cases hmost : policy.budget? with
  | none => rfl
  | some most => exact congrArg some (Nat.min_eq_left (hbudget most hmost))

theorem Follows.of_refusals
    (hfollows : Follows reply (answers (refusals faults ++ [.dialled answer]))) :
    Follows reply (faults.map .refused) ∧ reply (faults.length + 1) = answer ∧
      refusals faults ++ [.dialled answer] = redials (answersTo reply (faults.length + 1)) := by
  have hanswers : answers (refusals faults ++ [.dialled answer]) =
      faults.map .refused ++ [answer] := by
    rw [answers_append, answers_refusals]
    rfl
  rw [hanswers] at hfollows
  obtain ⟨hrefused, hanswer⟩ := hfollows.of_concat
  unfold Follows at hfollows
  rw [List.length_append, List.length_map, List.length_singleton] at hfollows
  rw [List.length_map] at hanswer
  refine ⟨hrefused, hanswer, ?_⟩
  rw [hfollows, redials_refused]
  rfl

/-- Without a close, a search ends with the dial that is due. -/
theorem RedialEnds.result (h : RedialEnds address policy slot made acts view)
    (hopen : acts.getLast? ≠ some .noticed) (hfollows : Follows reply (answers acts))
    (hfirst : IsFirst reply first?) :
    ∃ last, dials? policy.budget? first? = some last ∧ acts = redials (answersTo reply last) ∧
      RedialResult address policy made reply first? last view.phase := by
  cases h with
  | connected faults hbudget =>
    obtain ⟨hrefused, hanswer, hacts⟩ := hfollows.of_refusals
    obtain rfl := first?_eq hrefused hfirst (by rw [hanswer]; rfl)
    exact ⟨_, dials?_of_budget hbudget, hacts, .connected rfl hanswer⟩
  | unusable faults fault hbudget =>
    obtain ⟨hrefused, hanswer, hacts⟩ := hfollows.of_refusals
    obtain rfl := first?_eq hrefused hfirst (by rw [hanswer]; rfl)
    exact ⟨_, dials?_of_budget hbudget, hacts, .unusable fault rfl hanswer⟩
  | exhausted faults fault hmost =>
    obtain ⟨-, hanswer, hacts⟩ := hfollows.of_refusals
    rw [answers_refused] at hfollows
    have hbeyond : ∀ first ∈ first?, faults.length + 1 < first := by
      intro first hsome
      have hless := length_lt_first hfollows hfirst first hsome
      rwa [List.length_append] at hless
    refine ⟨_, ?_, hacts, .exhausted fault hmost hbeyond hanswer⟩
    rw [hmost]
    cases first? with
    | none => rfl
    | some first => exact congrArg some (Nat.min_eq_right (hbeyond first rfl).le)
  | closed acts phase hredialing => exact (hopen List.getLast?_concat).elim

end Given

/-! ### The search of a send at work -/

/-- Whether a send is past its search for a connection. -/
def Phase.hasRedialled : Phase → Bool
  | .rewriting _ => true
  | .finished _ => true
  | _ => false

theorem Phase.hasRedialled_of_isDialing {phase : Phase} (hdialing : phase.isDialing = true) :
    phase.hasRedialled = false := by
  cases phase <;> first | rfl | cases hdialing

section Walks

variable {address : String} {policy : RedialPolicy} {acts : List Act} {act : Act}
  {start view next : View}

theorem Works.hasRedialled (works : Works address policy view act next)
    (hpast : view.phase.hasRedialled = true) : next.phase.hasRedialled = true := by
  cases works <;> first | rfl | cases hpast

theorem RedialEnds.hasRedialled {slot : Option Nat} {made : Nat}
    (h : RedialEnds address policy slot made acts view) : view.phase.hasRedialled = true := by
  cases h <;> rfl

/-- What a send does from its first dial on is a search, until that is over. -/
theorem redialing_of_walk (walk : Walk address policy start acts view)
    (hstart : start.phase = .dialing 1) :
    (Redialing policy acts view.phase ∧ view.slot = start.slot ∧
        view.connections = start.connections) ∨ view.phase.hasRedialled = true := by
  induction walk with
  | start =>
    rw [hstart]
    exact .inl ⟨.start, rfl, rfl⟩
  | step walk works ih =>
    rcases ih with ⟨hredialing, hslot, hmade⟩ | hpast
    · rcases hredialing.step works with ⟨hnext, hslot', hmade'⟩ | hends
      · exact .inl ⟨hnext, hslot'.trans hslot, hmade'.trans hmade⟩
      · exact .inr hends.hasRedialled
    · exact .inr (works.hasRedialled hpast)

end Walks

namespace Transport

variable {transport before after later : Transport} {task : Task} {number : Nat}
  {history onward : List (Transport × Step)} {step : Step} {address : String}
  {policy : RedialPolicy} {phase : Phase} {reply : Nat → DialEnd} {first? : Option Nat}

theorem exists_task_of_phase? (hphase : transport.phase? number = some phase) :
    ∃ task, transport.task? number = some task ∧ task.number = number ∧ task.phase = phase := by
  obtain ⟨task, htask, hsame⟩ := Option.map_eq_some_iff.mp hphase
  exact ⟨task, htask, number_of_task? htask, hsame⟩

theorem phase?_of_task? (htask : transport.task? number = some task) :
    transport.phase? number = some task.phase := by
  rw [phase?, htask]
  rfl

/-- How a search stands in a run. -/
structure Searching (address : String) (policy : RedialPolicy) (transport : Transport)
    (number : Nat) (onward : List (Transport × Step)) (later : Transport) (phase : Phase) :
    Prop where
  redialing : Redialing policy (acts number onward) phase
  slot_eq : later.slot = transport.slot
  length_eq : later.accepted.length = transport.accepted.length
  address_eq : later.address = address
  policy_eq : later.policy = policy

theorem searching_of_run (run : Run step? { address, policy } history transport)
    (hstart : transport.phase? number = some (.dialing 1)) (onto : Run step? transport onward later)
    (hphase : later.phase? number = some phase) (hdialing : phase.isDialing = true) :
    Searching address policy transport number onward later phase := by
  obtain ⟨task, htask, rfl, hfirst⟩ := exists_task_of_phase? hstart
  have hbusy : task.phase.isBusy = true := by rw [hfirst]; rfl
  obtain ⟨view, hwalked⟩ := walked_of_run run htask hbusy onto
  have hsame : view.phase = phase :=
    Option.some.inj ((phase?_of_task? hwalked.task?_eq).symm.trans hphase)
  -- A send that is past its search does not come back to it.
  rcases redialing_of_walk hwalked.walk hfirst with ⟨hredialing, hslot, hmade⟩ | hpast
  · subst hsame
    have hview := hwalked.view_eq (Phase.isFinished_of_isBusy (Phase.isBusy_of_isDialing hdialing))
    obtain ⟨haddress, hpolicy⟩ := settings_of_run (run.append onto)
    exact ⟨hredialing, (congrArg View.slot hview).trans hslot,
      (congrArg View.connections hview).trans hmade, haddress, hpolicy⟩
  · rw [hsame, Phase.hasRedialled_of_isDialing hdialing] at hpast
    cases hpast

theorem step?_dialled {attempt : Nat} (answer : DialEnd)
    (htask : transport.task? number = some task) (hphase : task.phase = .dialing attempt) :
    transport.step? (.dialled number answer) = some (transport.dialled task answer) := by
  simp only [step?, htask, hphase]

theorem step?_rested {attempt : Nat} (htask : transport.task? number = some task)
    (hphase : task.phase = .pausing attempt) :
    transport.step? (.rested number) =
      some (transport.setPhase number (.dialing (attempt + 1))) := by
  simp only [step?, htask, hphase]

/-- A dial or a pause can come to its end, a dial with the answer that is due. -/
theorem exists_end (hphase : transport.phase? number = some phase)
    (hdialing : phase.isDialing = true)
    (hfollows : Follows reply (answers (acts number onward))) :
    ∃ step after, transport.step? step = some after ∧ step.by? = some number ∧
      step.isEnd = true ∧
      Follows reply (answers (acts number (onward ++ [(transport, step)]))) := by
  obtain ⟨task, htask, rfl, rfl⟩ := exists_task_of_phase? hphase
  cases hsearch : task.phase with
  | dialing attempt =>
    let answer := reply ((answers (acts task.number onward)).length + 1)
    have hact : act? task.number transport (.dialled task.number answer) =
        some (.dialled answer) := if_pos rfl
    refine ⟨_, _, step?_dialled answer htask hsearch, rfl, rfl, ?_⟩
    rw [acts_append_of_some hact, answers_append]
    exact hfollows.concat
  | pausing attempt =>
    have hact : act? task.number transport (.rested task.number) = some .rested := if_pos rfl
    have hsame : answers (acts task.number onward ++ [.rested]) =
        answers (acts task.number onward) := by
      rw [answers_append]
      exact List.append_nil _
    refine ⟨_, _, step?_rested htask hsearch, rfl, rfl, ?_⟩
    rwa [acts_append_of_some hact, hsame]
  | _ => rw [hsearch] at hdialing; cases hdialing

/-- The act of a search's own step: the search goes on, or this is its end. -/
theorem redialing_of_step? (run : Run step? { address, policy } history transport)
    (hstart : transport.phase? number = some (.dialing 1))
    (onto : Run step? transport onward before) (hphase : before.phase? number = some phase)
    (hdialing : phase.isDialing = true) (possible : before.step? step = some after)
    (hby : step.by? = some number) :
    ∃ next, after.phase? number = some next ∧
      (Redialing policy (acts number (onward ++ [(before, step)])) next ∨
        RedialEnds address policy transport.slot transport.accepted.length
          (acts number (onward ++ [(before, step)])) (after.view next)) := by
  obtain ⟨hredialing, hslot, hmade, haddress, hpolicy⟩ :=
    searching_of_run run hstart onto hphase hdialing
  obtain ⟨task, htask, rfl, rfl⟩ := exists_task_of_phase? hphase
  have hbusy := Phase.isBusy_of_isDialing hdialing
  obtain ⟨act, next, hact, hnext, works⟩ := exists_worked possible hby htask hbusy
  rw [haddress, hpolicy] at works
  rw [acts_append_of_some hact, ← hslot, ← hmade]
  refine ⟨next, phase?_of_task? hnext, ?_⟩
  rcases Redialing.step hredialing works with ⟨hon, -, -⟩ | hends
  · exact .inl hon
  · exact .inr hends

theorem act?_of_isEnd (transport : Transport) (hby : step.by? = some number)
    (hend : step.isEnd = true) : ∃ act, act? number transport step = some act ∧ act ≠ .noticed := by
  cases step with
  | dialled _ answer => exact ⟨.dialled answer, if_pos hby, fun hsame ↦ nomatch hsame⟩
  | rested _ => exact ⟨.rested, if_pos hby, fun hsame ↦ nomatch hsame⟩
  | _ => cases hend

theorem getLast?_acts (hby : step.by? = some number) (hend : step.isEnd = true) :
    (acts number (onward ++ [(before, step)])).getLast? ≠ some .noticed := by
  obtain ⟨act, hact, hother⟩ := act?_of_isEnd before hby hend
  rw [acts_append_of_some hact, List.getLast?_concat]
  exact fun hsame ↦ hother (Option.some.inj hsame)

/-- A search can always be brought to its end by the answers that are due. -/
theorem exists_completion {last : Nat} (run : Run step? { address, policy } history transport)
    (hstart : transport.phase? number = some (.dialing 1)) (hfirst : IsFirst reply first?)
    (hlast : dials? policy.budget? first? = some last) (more : List Act)
    (onto : Run step? transport onward later) (hphase : later.phase? number = some phase)
    (hdialing : phase.isDialing = true) (hfollows : Follows reply (answers (acts number onward)))
    (hmore : redials (answersTo reply last) = acts number onward ++ more) :
    ∃ further final next, Run step? transport further final ∧
      acts number further = redials (answersTo reply last) ∧
      final.phase? number = some next ∧
      RedialResult address policy transport.accepted.length reply first? last next := by
  induction hlength : more.length using Nat.strong_induction_on generalizing onward later phase more
  next length ih =>
    obtain ⟨step, after, possible, hby, hend, hstill⟩ := exists_end hphase hdialing hfollows
    obtain ⟨act, hact, -⟩ := act?_of_isEnd later hby hend
    have onto' := Run.step onto possible
    obtain ⟨next, hnext, hon | hends⟩ :=
      redialing_of_step? run hstart onto hphase hdialing possible hby
    · obtain ⟨rest, -, hrest⟩ := hon.redials_eq hstill hfirst hlast
      -- The acts that are missing from the whole search have become fewer.
      have hshorter : rest.length < length := by
        have htotal := congrArg List.length (hmore.symm.trans hrest)
        rw [acts_append_of_some hact] at htotal
        simp only [List.length_append, List.length_singleton] at htotal
        omega
      exact ih rest.length hshorter rest onto' hnext hon.isDialing hstill hrest rfl
    · obtain ⟨found, hfound, hacts, hresult⟩ :=
        hends.result (getLast?_acts hby hend) hstill hfirst
      obtain rfl := Option.some.inj (hlast.symm.trans hfound)
      exact ⟨_, after, next, onto', hacts, hnext, hresult⟩

/-- What the budget, the answers to its dials and a close make of a search for a connection. -/
structure Redials (address : String) (policy : RedialPolicy) (transport : Transport) (number : Nat)
    (reply : Nat → DialEnd) (first? : Option Nat) : Prop where
  /-- Under way, it has acts before it, and its dial or its pause can come to an end. -/
  goesOn : ∀ onward later phase, Run step? transport onward later →
    later.phase? number = some phase → phase.isDialing = true →
    Follows reply (answers (acts number onward)) →
    (∀ last, dials? policy.budget? first? = some last →
      ∃ more, more ≠ [] ∧ redials (answersTo reply last) = acts number onward ++ more) ∧
    ∃ step after, later.step? step = some after ∧ step.by? = some number ∧ step.isEnd = true ∧
      Follows reply (answers (acts number (onward ++ [(later, step)])))
  /-- A dial that ends it is the first that is answered, or the last that is permitted. -/
  ends : ∀ onward before step after phase next, Run step? transport onward before →
    before.phase? number = some phase → phase.isDialing = true →
    before.step? step = some after → step.by? = some number → step.isEnd = true →
    Follows reply (answers (acts number (onward ++ [(before, step)]))) →
    after.phase? number = some next → next.isDialing = false →
    ∃ last, dials? policy.budget? first? = some last ∧
      acts number (onward ++ [(before, step)]) = redials (answersTo reply last) ∧
      RedialResult address policy transport.accepted.length reply first? last next
  /-- It comes to this end when nothing interrupts it. -/
  completes : ∀ last, dials? policy.budget? first? = some last →
    ∃ onward later next, Run step? transport onward later ∧
      acts number onward = redials (answersTo reply last) ∧ later.phase? number = some next ∧
      RedialResult address policy transport.accepted.length reply first? last next
  /-- Nothing but a close interrupts it. -/
  uninterrupted : ∀ onward before step after phase, Run step? transport onward before →
    before.phase? number = some phase → phase.isDialing = true → before.closed = false →
    before.step? step = some after → step.by? = some number → step.isEnd = true
  /-- The attempts are counted within the budget, and this within four octets. -/
  counted : ∀ onward later phase attempt, Run step? transport onward later →
    later.phase? number = some phase → phase.attempt? = some attempt →
    attempt ≤ (answers (acts number onward)).length + 1 ∧
      ∀ most ∈ policy.budget?, attempt ≤ most ∧ most < UInt32.size
  /-- The signal of a close is always possible, and the transport is closed just if it was given. -/
  signals : ∀ onward later, Run step? transport onward later →
    (∃ after, later.step? .signal = some after ∧ after.closed = true) ∧
      (later.closed = true ↔ transport.closed = true ∨ ∃ entry ∈ onward, entry.2 = .signal)
  /-- After the signal of a close, what interrupts it is final, and it dials no more. -/
  closes : ∀ onward before phase, Run step? transport onward before →
    before.phase? number = some phase → phase.isDialing = true → before.closed = true →
    before.step? (.noticed number) = some (before.finish number (.error .closed)) ∧
    ∀ step after, before.step? step = some after → step.by? = some number → step.isEnd = false →
      after = before.finish number (.error .closed) ∧
      ∀ further later, Run step? after further later →
        later.phase? number = some (.finished (.error .closed)) ∧ acts number further = []

theorem closes_of_isDialing (hphase : before.phase? number = some phase)
    (hdialing : phase.isDialing = true) (hclosed : before.closed = true)
    (possible : before.step? step = some after) (hby : step.by? = some number)
    (hend : step.isEnd = false) :
    after = before.finish number (.error .closed) ∧
      ∀ further later, Run step? after further later →
        later.phase? number = some (.finished (.error .closed)) ∧ acts number further = [] := by
  obtain ⟨task, htask, rfl, rfl⟩ := exists_task_of_phase? hphase
  obtain rfl := notices_of_isDialing possible hby hend htask hdialing hclosed
  refine ⟨rfl, fun further later onto ↦ ?_⟩
  have hover : (before.finish task.number (.error .closed)).task? task.number =
      some { task with phase := .finished (.error .closed) } := task?_goesOn rfl htask _
  obtain ⟨hstill, hacts⟩ := settled_of_finished hover rfl onto
  exact ⟨phase?_of_task? hstill, hacts⟩

theorem isEnd_of_open (hphase : before.phase? number = some phase)
    (hdialing : phase.isDialing = true) (hopen : before.closed = false)
    (possible : before.step? step = some after) (hby : step.by? = some number) :
    step.isEnd = true := by
  obtain ⟨task, htask, rfl, rfl⟩ := exists_task_of_phase? hphase
  cases hend : step.isEnd with
  | true => rfl
  | false =>
    obtain rfl := noticed_of_isDialing possible hby hend htask hdialing
    simp only [step?, htask, hopen] at possible
    split at possible <;> cases possible

/-- Assumes: a send that is about to dial for the first time, and answers to all its dials. -/
theorem redials_of_run (run : Run step? { address, policy } history transport)
    (hstart : transport.phase? number = some (.dialing 1)) (hfirst : IsFirst reply first?) :
    Redials address policy transport number reply first? where
  goesOn := by
    intro onward later phase onto hphase hdialing hfollows
    have hredialing := (searching_of_run run hstart onto hphase hdialing).redialing
    obtain ⟨step, after, possible, hby, hend, hstill⟩ := exists_end hphase hdialing hfollows
    exact ⟨fun last hlast ↦ hredialing.redials_eq hfollows hfirst hlast,
      step, after, possible, hby, hend, hstill⟩
  ends := by
    intro onward before step after phase next onto hphase hdialing possible hby hend hfollows hnext
      hpast
    obtain ⟨found, hfound, hon | hends⟩ :=
      redialing_of_step? run hstart onto hphase hdialing possible hby
    · obtain rfl := Option.some.inj (hnext.symm.trans hfound)
      rw [hon.isDialing] at hpast
      cases hpast
    · obtain rfl := Option.some.inj (hnext.symm.trans hfound)
      exact hends.result (getLast?_acts hby hend) hfollows hfirst
  completes := by
    intro last hlast
    have hfollows : Follows reply (answers (acts number ([] : List (Transport × Step)))) := rfl
    obtain ⟨more, -, hmore⟩ := Redialing.start.redials_eq hfollows hfirst hlast
    exact exists_completion run hstart hfirst hlast more .start hstart rfl hfollows hmore
  uninterrupted := fun _ _ _ _ _ _ ↦ isEnd_of_open
  counted := by
    intro onward later phase attempt onto hphase hattempt
    have hdialing : phase.isDialing = true := by cases phase <;> first | rfl | cases hattempt
    have hredialing := (searching_of_run run hstart onto hphase hdialing).redialing
    obtain ⟨hle, hbudget⟩ := hredialing.attempt_le hattempt
    exact ⟨hle, fun most hmost ↦ ⟨hbudget most hmost, lt_size_of_budget? hmost⟩⟩
  signals := fun _ later onto ↦ ⟨⟨later.signal, rfl, rfl⟩,
    onto.holds_iff (fun transport ↦ transport.closed = true) (· = .signal)
      fun _ _ _ possible ↦ closed_iff_of_step? possible⟩
  closes := by
    intro onward before phase onto hphase hdialing hclosed
    refine ⟨?_, fun step after ↦ closes_of_isDialing hphase hdialing hclosed⟩
    obtain ⟨task, htask, rfl, rfl⟩ := exists_task_of_phase? hphase
    exact step?_noticed htask hdialing hclosed

/-- Two dials are refused, and the third is answered. -/
def twoRefusals (dial : Nat) : DialEnd :=
  if dial < 3 then .refused ⟨.connectionRefused, ""⟩ else .connected

/-- Three dials are permitted, and the third would be answered; but a close is signalled after the
first, and ends the search. -/
theorem redials_of_refusals : ∃ history transport onward before,
    Run step? { address := "", policy := { maxAttempts := some 3 } } history transport ∧
      transport.phase? 0 = some (.dialing 1) ∧
      Redials "" { maxAttempts := some 3 } transport 0 twoRefusals (some 3) ∧
      Run step? transport onward before ∧ before.phase? 0 = some (.pausing 1) ∧
      before.step? (.noticed 0) = some (before.finish 0 (.error .closed)) := by
  have hfollow : ((Run.follow? step? { address := "", policy := { maxAttempts := some 3 } }
      [.send 0 {}, .enter 0, .wrote 0 (.broken 0 ⟨.connectionReset, ""⟩)]).bind fun started ↦
        (Run.follow? step? started.2 [.dialled 0 (twoRefusals 1), .signal]).map
          fun taken ↦ (started.2.phase? 0, taken.2.phase? 0, taken.2.closed)) =
      some (some (.dialing 1), some (.pausing 1), true) := by
    rfl
  obtain ⟨⟨history, transport⟩, hstarted, hrest⟩ := Option.bind_eq_some_iff.mp hfollow
  obtain ⟨⟨onward, before⟩, htaken, hseen⟩ := Option.map_eq_some_iff.mp hrest
  simp only [Prod.mk.injEq] at hseen
  obtain ⟨hstart, hpausing, hclosed⟩ := hseen
  have run := Run.of_follow? hstarted
  have onto := Run.of_follow? htaken
  have hfirst : IsFirst twoRefusals (some 3) :=
    ⟨by decide, rfl, fun _ _ hdial ↦ congrArg DialEnd.isRefused (if_pos hdial)⟩
  have hredials := redials_of_run run hstart hfirst
  exact ⟨history, transport, onward, before, run, hstart, hredials, onto, hpausing,
    (hredials.closes onward before (.pausing 1) onto hpausing rfl hclosed).1⟩

end Transport

end GelfCourier.Stream
