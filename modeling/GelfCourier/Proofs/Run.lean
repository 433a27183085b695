/-!
Runs of a system that takes one step at a time. A run keeps its history: every state that was left,
with the step that was taken in it. What happened in a run is read off this history.
-/

set_option autoImplicit false

namespace GelfCourier

inductive Run {σ α : Type} (step? : σ → α → Option σ) (start : σ) : List (σ × α) → σ → Prop where
  | start : Run step? start [] start
  | step {history : List (σ × α)} {before after : σ} {action : α}
      (run : Run step? start history before) (possible : step? before action = some after) :
      Run step? start (history ++ [(before, action)]) after

namespace Run

variable {σ α : Type} {step? : σ → α → Option σ} {start finish : σ} {history : List (σ × α)}

/-- Takes the steps of a list one after another, where each is possible. -/
def follow? (step? : σ → α → Option σ) : σ → List α → Option (List (σ × α) × σ)
  | start, [] => some ([], start)
  | start, action :: actions =>
    (step? start action).bind fun next ↦
      (follow? step? next actions).map fun rest ↦ ((start, action) :: rest.1, rest.2)

theorem cons {next : σ} {action : α} (possible : step? start action = some next)
    (run : Run step? next history finish) :
    Run step? start ((start, action) :: history) finish := by
  induction run with
  | start => exact .step .start possible
  | step _ last ih => exact .step ih last

theorem append {middle : σ} {earlier : List (σ × α)} (first : Run step? start earlier middle)
    (run : Run step? middle history finish) : Run step? start (earlier ++ history) finish := by
  induction run with
  | start =>
    rw [List.append_nil]
    exact first
  | step _ last ih =>
    rw [← List.append_assoc]
    exact .step ih last

theorem of_follow? {actions : List α}
    (hfollow : follow? step? start actions = some (history, finish)) :
    Run step? start history finish := by
  induction actions generalizing start history with
  | nil =>
    cases hfollow
    exact .start
  | cons action actions ih =>
    obtain ⟨next, hnext, hrest⟩ := Option.bind_eq_some_iff.mp hfollow
    obtain ⟨rest, htaken, hsame⟩ := Option.map_eq_some_iff.mp hrest
    cases hsame
    exact cons hnext (ih htaken)

theorem exists_of_follow? {actions : List α}
    (hfollow : (follow? step? start actions).map Prod.snd = some finish) :
    ∃ history, Run step? start history finish := by
  obtain ⟨⟨history, reached⟩, htaken, hsame⟩ := Option.map_eq_some_iff.mp hfollow
  cases hsame
  exact ⟨history, of_follow? htaken⟩

/-- A step of a run was taken at the end of an earlier run. -/
theorem of_mem {state : σ} {action : α} (run : Run step? start history finish)
    (hentry : (state, action) ∈ history) :
    ∃ earlier, Run step? start earlier state ∧ ∃ next, step? state action = some next := by
  induction run with
  | start => cases hentry
  | step run possible ih =>
    rcases List.mem_append.mp hentry with hold | hlast
    · exact ih hold
    · cases List.mem_singleton.mp hlast
      exact ⟨_, run, _, possible⟩

/-- A run cut where one of its steps was taken. -/
theorem split {state : σ} {action : α} {earlier later : List (σ × α)}
    (run : Run step? start (earlier ++ (state, action) :: later) finish) :
    Run step? start earlier state ∧
      ∃ next, step? state action = some next ∧ Run step? next later finish := by
  generalize hwhole : earlier ++ (state, action) :: later = history at run
  induction run generalizing later with
  | start => simp at hwhole
  | @step history before after last run possible ih =>
    rcases List.eq_nil_or_concat later with rfl | ⟨front, final, hlater⟩
    · obtain ⟨rfl, hlast⟩ := List.append_inj' hwhole rfl
      cases hlast
      exact ⟨run, after, possible, .start⟩
    · rw [List.concat_eq_append] at hlater
      subst hlater
      rw [← List.cons_append, ← List.append_assoc] at hwhole
      obtain ⟨hfront, hlast⟩ := List.append_inj' hwhole rfl
      cases hlast
      obtain ⟨first, next, hnext, rest⟩ := ih hfront
      exact ⟨first, next, hnext, .step rest possible⟩

/-- The states that a run goes through, the last one included. -/
def states (history : List (σ × α)) (finish : σ) : List σ :=
  history.map Prod.fst ++ [finish]

theorem forall_states_step {Holds : σ → Prop} {before after : σ} {action : α}
    (hbefore : ∀ state ∈ states history before, Holds state) (hafter : Holds after) :
    ∀ state ∈ states (history ++ [(before, action)]) after, Holds state := by
  unfold states at hbefore ⊢
  rw [List.map_append, List.forall_mem_append, List.forall_mem_singleton]
  exact ⟨hbefore, hafter⟩

theorem exists_of_mem_states {state : σ} (run : Run step? start history finish)
    (hstate : state ∈ states history finish) : ∃ earlier, Run step? start earlier state := by
  rcases List.mem_append.mp hstate with hold | hlast
  · obtain ⟨entry, hentry, rfl⟩ := List.mem_map.mp hold
    obtain ⟨earlier, hearlier, -⟩ := run.of_mem hentry
    exact ⟨earlier, hearlier⟩
  · rw [List.mem_singleton.mp hlast]
    exact ⟨history, run⟩

/-- What is seen of the steps of a run, in order. -/
def observed {β : Type} (observe : σ → α → Option β) (history : List (σ × α)) : List β :=
  history.filterMap fun entry ↦ observe entry.1 entry.2

theorem observed_append_singleton {β : Type} (observe : σ → α → Option β)
    (history : List (σ × α)) (state : σ) (action : α) :
    observed observe (history ++ [(state, action)]) =
      observed observe history ++ (observe state action).toList := by
  unfold observed
  rw [List.filterMap_append]
  cases hseen : observe state action <;> simp [hseen]

/-- What holds at the start and is kept by every step holds throughout a run. -/
theorem invariant (Holds : σ → Prop) (run : Run step? start history finish)
    (hstart : Holds start)
    (hstep : ∀ before action after, Holds before → step? before action = some after →
      Holds after) : Holds finish := by
  induction run with
  | start => exact hstart
  | step _ possible ih => exact hstep _ _ _ ih possible

/-- What some actions bring about, and nothing takes back, holds just if it held at the start or
such an action was taken. -/
theorem holds_iff (Holds : σ → Prop) (Sets : α → Prop) (run : Run step? start history finish)
    (hstep : ∀ before action after, step? before action = some after →
      (Holds after ↔ Holds before ∨ Sets action)) :
    Holds finish ↔ Holds start ∨ ∃ entry ∈ history, Sets entry.2 := by
  induction run with
  | start => simp
  | @step history before after action run possible ih =>
    rw [hstep _ _ _ possible, ih, or_assoc]
    simp only [List.mem_append, List.mem_singleton, or_and_right, exists_or, exists_eq_left]

end Run

end GelfCourier
