import GelfCourier.Event.Observer
import Mathlib.Tactic.Tauto

/-!
Which events an observer keeps to itself. It knows the library's own events by how their targets
begin and does not ask where the name ends, so it withholds the events of every other library whose
name begins in the same way, too.
-/

set_option autoImplicit false

namespace GelfCourier.Observer

/-- The library has emitted an event of this target: the target is the library's name, or a path
below it. -/
def IsOfLibrary (target : String) : Prop :=
  target = ownTarget ∨ ∃ path, target = ownTarget ++ ("::" ++ path)

/-- The target begins with the library's name, but the name goes on. -/
def IsNamesake (target : String) : Prop :=
  ∃ rest, target = ownTarget ++ rest ∧ rest ≠ "" ∧ ∀ path, rest ≠ "::" ++ path

/-- The event is counted, and nothing else is done about it. -/
def Withholds (observer : Observer) (event : Event) : Prop :=
  ∀ time, observer.observe event time = { observer with total := observer.total + 1 }

/-- The event is counted and handed to the hook, and counted again for what the hook says. -/
def handOver (observer : Observer) (event : Event) (time : Instant) : Observer :=
  match observer.hook.enqueue (event.toRecord time) with
  | .ok hook =>
    { observer with hook, total := observer.total + 1, enqueued := observer.enqueued + 1 }
  | .error _ => { observer with total := observer.total + 1, dropped := observer.dropped + 1 }

variable {observer : Observer} {event : Event} {target : String}

theorem append_right_injective {first rest other : String} (h : first ++ rest = first ++ other) :
    rest = other := by
  rw [← String.toList_inj, String.toList_append, String.toList_append] at h
  exact String.toList_inj.mp (List.append_cancel_left h)

theorem isOwn_iff : isOwn event = true ↔ ∃ rest, event.target = ownTarget ++ rest := by
  unfold isOwn
  rw [List.isPrefixOf_iff_prefix]
  constructor
  · rintro ⟨rest, hrest⟩
    refine ⟨.ofList rest, String.toList_inj.mp ?_⟩
    rw [String.toList_append, String.toList_ofList, hrest]
  · rintro ⟨rest, hrest⟩
    exact ⟨rest.toList, by rw [hrest, String.toList_append]⟩

theorem not_isNamesake_of_isOfLibrary (h : IsOfLibrary target) : ¬ IsNamesake target := by
  rintro ⟨rest, rfl, hsome, hother⟩
  rcases h with hname | ⟨path, hpath⟩
  · exact hsome (append_right_injective (hname.trans String.append_empty.symm))
  · exact hother path (append_right_injective hpath)

theorem exists_append_iff : (∃ rest, target = ownTarget ++ rest) ↔
    IsOfLibrary target ∨ IsNamesake target := by
  constructor
  · rintro ⟨rest, rfl⟩
    by_cases hempty : rest = ""
    · exact .inl (.inl (by rw [hempty, String.append_empty]))
    · by_cases hpath : ∃ path, rest = "::" ++ path
      · obtain ⟨path, rfl⟩ := hpath
        exact .inl (.inr ⟨path, rfl⟩)
      · exact .inr ⟨rest, rfl, hempty, fun path hrest ↦ hpath ⟨path, hrest⟩⟩
  · rintro ((rfl | ⟨path, rfl⟩) | ⟨rest, rfl, -⟩)
    · exact ⟨"", String.append_empty.symm⟩
    · exact ⟨_, rfl⟩
    · exact ⟨rest, rfl⟩

theorem admits_iff : observer.admits event = true ↔
    event.level.rank ≤ observer.minLevel.rank ∧ ¬ IsOfLibrary event.target ∧
      ¬ IsNamesake event.target := by
  rw [admits, Bool.and_eq_true, decide_eq_true_eq, Bool.not_eq_true', Bool.eq_false_iff, ne_eq,
    isOwn_iff, exists_append_iff, not_or]

theorem observe_of_not_admits (h : ¬ observer.admits event = true) : observer.Withholds event := by
  intro time
  have hsame : ({ observer with total := observer.total + 1 } : Observer).admits event =
      observer.admits event := rfl
  simp only [observe, hsame, if_neg h]

theorem observe_of_admits (h : observer.admits event = true) (time : Instant) :
    observer.observe event time = observer.handOver event time := by
  have hsame : ({ observer with total := observer.total + 1 } : Observer).admits event =
      observer.admits event := rfl
  cases hqueued : observer.hook.enqueue (event.toRecord time) with
  | ok hook => simp only [observe, hsame, if_pos h, handOver, hqueued]
  | error fault => simp only [observe, hsame, if_pos h, handOver, hqueued]

/-- What passes the filter is queued or counted as dropped. -/
theorem withholds_iff : observer.Withholds event ↔ ¬ observer.admits event = true := by
  refine ⟨fun hwithheld hadmits ↦ ?_, observe_of_not_admits⟩
  have hcounted := hwithheld {}
  rw [observe_of_admits hadmits, handOver] at hcounted
  split at hcounted
  · have henqueued := congrArg Observer.enqueued hcounted
    exact absurd henqueued (Nat.succ_ne_self _)
  · have hdropped := congrArg Observer.dropped hcounted
    exact absurd hdropped (Nat.succ_ne_self _)

/-- How an observer filters an event. -/
structure Filtering (observer : Observer) (event : Event) : Prop where
  /-- Withheld is what is not severe enough, what the library has emitted, and what only begins
  with its name. -/
  withheld : observer.Withholds event ↔ observer.minLevel.rank < event.level.rank ∨
    IsOfLibrary event.target ∨ IsNamesake event.target
  /-- What begins with the name has another origin. -/
  apart : IsNamesake event.target → ¬ IsOfLibrary event.target
  /-- A severe event is withheld just for its origin unless its target only begins with the
  name. -/
  faithful : (event.level.rank ≤ observer.minLevel.rank →
      (observer.Withholds event ↔ IsOfLibrary event.target)) ↔
    ¬ (event.level.rank ≤ observer.minLevel.rank ∧ IsNamesake event.target)
  /-- Everything else is handed to the hook. -/
  shipped : ¬ observer.Withholds event → ∀ time,
    observer.observe event time = observer.handOver event time

theorem filtering (observer : Observer) (event : Event) : Filtering observer event := by
  have hwithheld : observer.Withholds event ↔ observer.minLevel.rank < event.level.rank ∨
      IsOfLibrary event.target ∨ IsNamesake event.target := by
    rw [withholds_iff, admits_iff, ← Nat.not_le]
    tauto
  have hapart : IsNamesake event.target → ¬ IsOfLibrary event.target :=
    fun hnamesake hlibrary ↦ not_isNamesake_of_isOfLibrary hlibrary hnamesake
  refine ⟨hwithheld, hapart, ?_, fun hshipped ↦ ?_⟩
  · rw [hwithheld, ← Nat.not_le]
    constructor
    · rintro hexact ⟨hsevere, hnamesake⟩
      exact hapart hnamesake ((hexact hsevere).mp (.inr (.inr hnamesake)))
    · intro hnone hsevere
      refine ⟨?_, fun hlibrary ↦ .inr (.inl hlibrary)⟩
      rintro (hlight | hlibrary | hnamesake)
      · exact absurd hsevere hlight
      · exact hlibrary
      · exact absurd ⟨hsevere, hnamesake⟩ hnone
  · rw [withholds_iff, Decidable.not_not] at hshipped
    exact observe_of_admits hshipped

/-- An event of another library, whose name begins like that of this one, is severe enough and is
not shipped. -/
theorem withholds_namesake : ∃ (observer : Observer) (event : Event),
    event.level.rank ≤ observer.minLevel.rank ∧ event.target = "tracing_gelf_sink_extras" ∧
      ¬ IsOfLibrary event.target ∧ observer.Withholds event := by
  let event : Event := { level := .info, target := "tracing_gelf_sink_extras" }
  have hnamesake : IsNamesake event.target :=
    ⟨"_extras", rfl, by decide, fun path hpath ↦ by
      have hhead := congrArg (fun s : String ↦ s.toList.head?) hpath
      simp at hhead⟩
  have hfiltered := filtering { hook := .ofSettings {} "h" } event
  exact ⟨_, event, by decide, rfl, hfiltered.apart hnamesake,
    hfiltered.withheld.mpr (.inr (.inr hnamesake))⟩

end GelfCourier.Observer
