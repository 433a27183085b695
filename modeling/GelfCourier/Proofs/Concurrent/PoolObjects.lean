import GelfCourier.Proofs.Concurrent.PoolAccounts
import GelfCourier.Proofs.Concurrent.Relabelling
import Mathlib.Data.List.ReduceOption

/-!
The objects of a pool, each followed through all hands. An object is marked with the time at which it
is made (`Pool.Marked`) and keeps its mark when its holder changes it; without the marks such a pool
goes through the same states as the pool itself. Every object made is with one guard, or idle, or
dropped for good; and the slots that came back go out again in the order in which they did.
-/

set_option autoImplicit false

namespace GelfCourier.Pool

variable {α : Type}

/-- What happens to a pool: a task goes on, or the holder of an object changes it. -/
inductive Act (α : Type) where
  | move (step : Step α)
  | change (guard : Nat) (object : α)

def act? (pool : Pool α) : Act α → Option (Pool α)
  | .move step => pool.step? step
  | .change guard object => (pool.object? guard).map fun _ ↦ pool.set guard object

/-! ### Marks -/

/-- A pool whose objects are marked. -/
structure Marked (α : Type) where
  /-- Each object stands behind its mark. -/
  pool : Pool (Nat × α)
  time : Nat := 0

/-- What became of the slots, where each object is known by its mark. -/
structure Places where
  /-- Slots that came back, the next to be taken in front. -/
  idle : List (Option Nat)
  /-- Gets that own a slot and are making its object. -/
  making : List Nat
  /-- Guards and what they hold. -/
  held : List (Nat × Nat)

namespace Places

/-- The objects that are held or idle. -/
def objects (places : Places) : List Nat :=
  places.held.map Prod.snd ++ places.idle.reduceOption

def object? (places : Places) (guard : Nat) : Option Nat :=
  (places.held.find? fun entry ↦ entry.1 = guard).map Prod.snd

/-- The object that is dropped with its guard. -/
def dropped? (places : Places) : Act α → Option Nat
  | .move (.giveBack guard false) => places.object? guard
  | _ => none

/-- The slot that is taken. -/
def taken? (places : Places) : Act α → Option (Option Nat)
  | .move (.take _) => places.idle.head?
  | _ => none

/-- The slot that comes back, with the object that a guard releases, or else vacant. -/
def returned? (places : Places) : Act α → Option (Option Nat)
  | .move (.giveBack guard true) => some (places.object? guard)
  | .move (.giveBack _ false) => some none
  | .move (.cancel get) => if get ∈ places.making then some none else none
  | _ => none

/-- A get takes the slot in front: it holds the object, or makes one where the slot is vacant. -/
def Serves (before after : Places) (get : Nat) : Prop :=
  match before.idle with
  | [] => False
  | some mark :: rest => after.idle = rest ∧ (get, mark) ∈ after.held
  | none :: rest => after.idle = rest ∧ get ∈ after.making

theorem object?_eq {places : Places} {guard mark : Nat}
    (hdistinct : (places.held.map Prod.fst).Nodup) (hheld : (guard, mark) ∈ places.held) :
    places.object? guard = some mark := by
  have hfound := Numbered.find?_of_mem Prod.fst hdistinct hheld
  dsimp only at hfound
  rw [object?, hfound]
  rfl

end Places

/-- The mark of a new object. -/
def made? (time : Nat) : Act α → Option Nat
  | .move (.finish _ _) => some time
  | _ => none

def places (pool : Pool Nat) : Places :=
  ⟨pool.idle.items, pool.making, pool.held⟩

namespace Marked

def ofCapacity (capacity : Nat) : Marked α where
  pool := Pool.ofCapacity capacity

/-- The pool without the marks. -/
def plain (marked : Marked α) : Pool α :=
  marked.pool.map Prod.snd

/-- The pool of the marks. -/
def marks (marked : Marked α) : Pool Nat :=
  marked.pool.map Prod.fst

def places (marked : Marked α) : Places :=
  marked.marks.places

/-- A new object is marked with the time. -/
def act? (marked : Marked α) : Act α → Option (Marked α)
  | .move step =>
    (marked.pool.step? (step.map fun object ↦ (marked.time, object))).map fun pool ↦
      ⟨pool, marked.time + 1⟩
  | .change guard object =>
    (marked.pool.object? guard).map fun held ↦
      ⟨marked.pool.set guard (held.1, object), marked.time + 1⟩

variable {marked after : Marked α} {action : Act α}

/-- Marks do not change what a pool does. -/
theorem act?_plain (marked : Marked α) (action : Act α) :
    marked.plain.act? action = (marked.act? action).map plain := by
  cases action with
  | move step =>
    have hstep := step?_map Prod.snd marked.pool (step.map fun object ↦ (marked.time, object))
    rw [Step.map_map] at hstep
    change marked.plain.step? (step.map id) = _ at hstep
    rw [Step.map_id] at hstep
    simp only [Pool.act?, act?, hstep, Option.map_map]
    rfl
  | change guard object =>
    simp only [Pool.act?, act?, plain, object?_map, Option.map_map]
    refine Option.map_congr fun held _ ↦ ?_
    exact set_map Prod.snd marked.pool guard (held.1, object)

theorem marks_move {step : Step α} (possible : marked.act? (.move step) = some after) :
    marked.marks.step? (step.map fun _ ↦ marked.time) = some after.marks := by
  have hstep := step?_map Prod.fst marked.pool (step.map fun object ↦ (marked.time, object))
  rw [Step.map_map] at hstep
  obtain ⟨pool, hpool, rfl⟩ := Option.map_eq_some_iff.mp possible
  rw [hpool] at hstep
  exact hstep

theorem set_eq_self {pool : Pool Nat} {guard mark : Nat}
    (hdistinct : (pool.held.map Prod.fst).Nodup) (hobject : pool.object? guard = some mark) :
    pool.set guard mark = pool := by
  have hsame : ∀ entry ∈ pool.held,
      (if entry.1 = guard then (guard, mark) else entry) = entry := by
    intro entry hentry
    by_cases hguard : entry.1 = guard
    · subst hguard
      rw [object?, Numbered.find?_of_mem Prod.fst hdistinct hentry] at hobject
      cases hobject
      exact if_pos rfl
    · exact if_neg hguard
  unfold set
  rw [List.map_congr_left hsame, List.map_id']

theorem marks_change {guard : Nat} {object : α}
    (hdistinct : (marked.marks.held.map Prod.fst).Nodup)
    (possible : marked.act? (.change guard object) = some after) : after.marks = marked.marks := by
  obtain ⟨held, hheld, rfl⟩ := Option.map_eq_some_iff.mp possible
  have hmark : marked.marks.object? guard = some held.1 := by
    rw [marks, object?_map, hheld]
    rfl
  have hset := set_map Prod.fst marked.pool guard (held.1, object)
  exact hset.symm.trans (set_eq_self hdistinct hmark)

theorem time_of_act? (possible : marked.act? action = some after) :
    after.time = marked.time + 1 := by
  cases action with
  | move step =>
    obtain ⟨pool, -, rfl⟩ := Option.map_eq_some_iff.mp possible
    rfl
  | change guard object =>
    obtain ⟨held, -, rfl⟩ := Option.map_eq_some_iff.mp possible
    rfl

end Marked

theorem Accounted.nodup_guards {pool : Pool α} (h : pool.Accounted) :
    (pool.held.map Prod.fst).Nodup := by
  refine List.nodup_iff_count.mpr fun guard ↦ ?_
  have hone := h.distinct guard
  rw [count_numbers] at hone
  omega

theorem mem_held_of_object? {pool : Pool α} {guard : Nat} {object : α}
    (hobject : pool.object? guard = some object) : (guard, object) ∈ pool.held := by
  obtain ⟨entry, hentry, rfl⟩ := Option.map_eq_some_iff.mp hobject
  have hguard : entry.1 = guard := by simpa using List.find?_some hentry
  rw [← hguard]
  exact List.mem_of_find?_eq_some hentry

theorem places_of_items_eq {pool : Pool Nat} {idle : Queue (Option Nat)}
    (hitems : idle.items = pool.idle.items) : places { pool with idle } = pool.places := by
  unfold places
  rw [hitems]

/-! ### One step -/

/-- What an act at some time does with the slots that came back, with the gets that make an object,
and with the guards. -/
inductive Handles (time : Nat) : Places → Act α → Places → Prop where
  | claim (get : Nat) (idle : List (Option Nat)) (making : List Nat) (held : List (Nat × Nat)) :
      Handles time ⟨idle, making, held⟩ (.move (.ask get)) ⟨idle, making ++ [get], held⟩
  | ask (get : Nat) (places : Places) : Handles time places (.move (.ask get)) places
  | reuse (get mark : Nat) (idle : List (Option Nat)) (making : List Nat)
      (held : List (Nat × Nat)) :
      Handles time ⟨some mark :: idle, making, held⟩ (.move (.take get))
        ⟨idle, making, held ++ [(get, mark)]⟩
  | refill (get : Nat) (idle : List (Option Nat)) (making : List Nat) (held : List (Nat × Nat)) :
      Handles time ⟨none :: idle, making, held⟩ (.move (.take get)) ⟨idle, making ++ [get], held⟩
  | fail (get : Nat) (places : Places) : Handles time places (.move (.fail get)) places
  | finish (get : Nat) (object : α) (idle : List (Option Nat)) (making : List Nat)
      (held : List (Nat × Nat)) (hmaking : get ∈ making) :
      Handles time ⟨idle, making, held⟩ (.move (.finish get object))
        ⟨idle, making.erase get, held ++ [(get, time)]⟩
  | release (guard mark : Nat) (idle : List (Option Nat)) (making : List Nat)
      (held : List (Nat × Nat)) (hheld : (guard, mark) ∈ held) :
      Handles time ⟨idle, making, held⟩ (.move (.giveBack guard true))
        ⟨idle ++ [some mark], making, held.filter fun entry ↦ entry.1 ≠ guard⟩
  | drop (guard mark : Nat) (idle : List (Option Nat)) (making : List Nat)
      (held : List (Nat × Nat)) (hheld : (guard, mark) ∈ held) :
      Handles time ⟨idle, making, held⟩ (.move (.giveBack guard false))
        ⟨idle ++ [none], making, held.filter fun entry ↦ entry.1 ≠ guard⟩
  | giveUp (get : Nat) (idle : List (Option Nat)) (making : List Nat) (held : List (Nat × Nat))
      (hmaking : get ∈ making) :
      Handles time ⟨idle, making, held⟩ (.move (.cancel get))
        ⟨idle ++ [none], making.erase get, held⟩
  | leave (get : Nat) (places : Places) (hmaking : get ∉ places.making) :
      Handles time places (.move (.cancel get)) places
  | signal (places : Places) : Handles time places (.move .signal) places
  | change (guard : Nat) (object : α) (places : Places) :
      Handles time places (.change guard object) places

theorem handles_of_step? {pool after : Pool Nat} {time : Nat} {step : Step α}
    (h : pool.Accounted) (possible : pool.step? (step.map fun _ ↦ time) = some after) :
    Handles time pool.places (.move step) after.places := by
  have hmoves := moves_of_step? possible
  cases step with
  | ask get =>
    cases hmoves with
    | ask _ hunknown =>
      unfold Pool.ask
      by_cases hroom : pool.created < pool.capacity
      · rw [if_pos hroom]
        exact .claim get pool.idle.items pool.making pool.held
      · rw [if_neg hroom, places_of_items_eq (Queue.items_ask pool.idle get)]
        exact .ask get pool.places
  | take get =>
    cases hmoves with
    | take _ hready =>
      rw [isReady, h.idle.isReady_eq] at hready
      obtain ⟨slot, rest, hitems⟩ := List.exists_cons_of_ne_nil (h.idle.items_ne_nil hready)
      unfold places Pool.take Queue.take
      rw [hitems]
      cases slot with
      | none => exact .refill get rest pool.making pool.held
      | some mark => exact .reuse get mark rest pool.making pool.held
  | fail get =>
    cases hmoves with
    | fail _ hmaking => exact .fail get pool.places
  | finish get object =>
    cases hmoves with
    | finish _ _ hmaking =>
      have hmem : get ∈ pool.making := by simpa [isMaking] using hmaking
      exact .finish get object pool.idle.items pool.making pool.held hmem
  | giveBack guard keep =>
    cases hmoves with
    | giveBack _ mark _ hobject =>
      have hheld := mem_held_of_object? hobject
      unfold Pool.giveBack
      rw [hobject]
      cases keep with
      | true => exact .release guard mark pool.idle.items pool.making pool.held hheld
      | false => exact .drop guard mark pool.idle.items pool.making pool.held hheld
  | cancel get =>
    cases hmoves with
    | cancel _ hknown =>
      unfold Pool.cancel
      by_cases hmaking : pool.making.contains get = true
      · rw [if_pos hmaking]
        exact .giveUp get pool.idle.items pool.making pool.held (by simpa using hmaking)
      · rw [if_neg hmaking, places_of_items_eq (Queue.items_cancel pool.idle get)]
        exact .leave get pool.places (by simpa [places] using hmaking)
  | signal =>
    cases hmoves with
    | signal hpending =>
      have hitems : pool.idle.signal.items = pool.idle.items := Queue.items_addPermit _
      rw [Pool.signal, places_of_items_eq hitems]
      exact .signal pool.places

theorem eq_of_mem_made? {time mark : Nat} {action : Act α}
    (hmark : mark ∈ (made? time action).toList) : mark = time := by
  unfold made? at hmark
  split at hmark
  · exact List.mem_singleton.mp hmark
  · cases hmark

namespace Handles

variable {time get mark : Nat} {before after : Places} {action : Act α}

/-- An object made comes in, and only one that is dropped goes out. -/
theorem objects_perm (handled : Handles time before action after)
    (hdistinct : (before.held.map Prod.fst).Nodup) :
    (after.objects ++ (before.dropped? action).toList).Perm
      (before.objects ++ (made? time action).toList) := by
  cases handled with
  | reuse get mark idle making held =>
    simp [Places.objects, Places.dropped?, made?, List.reduceOption_cons_of_some]
  | refill get idle making held =>
    simp [Places.objects, Places.dropped?, made?, List.reduceOption_cons_of_none]
  | finish get object idle making held hmaking =>
    refine List.perm_iff_count.mpr fun mark ↦ ?_
    simp only [Places.objects, Places.dropped?, made?, List.map_append, List.map_singleton,
      List.count_append, Option.toList_none, Option.toList_some, List.count_nil]
    omega
  | release guard mark idle making held hheld =>
    have hperm := (Numbered.perm_cons_filter Prod.fst hdistinct hheld).map Prod.snd
    refine List.perm_iff_count.mpr fun other ↦ ?_
    have hcount := hperm.count_eq other
    simp only [Places.objects, Places.dropped?, made?, List.map_cons, List.reduceOption_append,
      List.reduceOption_singleton, List.count_append, List.count_cons, Option.toList_none,
      Option.toList_some, List.count_nil] at hcount ⊢
    omega
  | drop guard mark idle making held hheld =>
    have hperm := (Numbered.perm_cons_filter Prod.fst hdistinct hheld).map Prod.snd
    have hobject := Places.object?_eq hdistinct hheld
    refine List.perm_iff_count.mpr fun other ↦ ?_
    have hcount := hperm.count_eq other
    simp only [Places.objects, Places.dropped?, made?, hobject, List.map_cons,
      List.reduceOption_append, List.reduceOption_singleton, List.count_append, List.count_cons,
      Option.toList_none, Option.toList_some, List.count_nil] at hcount ⊢
    omega
  | giveUp get idle making held hmaking =>
    simp [Places.objects, Places.dropped?, made?, List.reduceOption_append,
      List.reduceOption_singleton]
  | _ => exact List.Perm.refl _

/-- A slot is taken in front, and comes back at the end. -/
theorem idle_eq (handled : Handles time before action after)
    (hdistinct : (before.held.map Prod.fst).Nodup) :
    (before.taken? action).toList ++ after.idle =
      before.idle ++ (before.returned? action).toList := by
  cases handled with
  | reuse get mark idle making held => exact (List.append_nil _).symm
  | refill get idle making held => exact (List.append_nil _).symm
  | release guard mark idle making held hheld =>
    simp only [Places.returned?, Places.object?_eq hdistinct hheld]
    rfl
  | drop guard mark idle making held hheld => rfl
  | giveUp get idle making held hmaking =>
    simp only [Places.returned?, if_pos hmaking]
    rfl
  | leave get places hmaking =>
    simp only [Places.returned?, if_neg hmaking]
    exact (List.append_nil _).symm
  | _ => exact (List.append_nil _).symm

/-- What is idle now and was not before has just been released. -/
theorem released (handled : Handles time before action after) (hafter : some mark ∈ after.idle)
    (hbefore : some mark ∉ before.idle) :
    ∃ guard, action = .move (.giveBack guard true) ∧ (guard, mark) ∈ before.held := by
  cases handled with
  | reuse get other idle making held => exact absurd (List.mem_cons_of_mem _ hafter) hbefore
  | refill get idle making held => exact absurd (List.mem_cons_of_mem _ hafter) hbefore
  | release guard other idle making held hheld =>
    cases List.mem_singleton.mp ((List.mem_append.mp hafter).resolve_left hbefore)
    exact ⟨guard, rfl, hheld⟩
  | drop guard other idle making held hheld =>
    cases List.mem_singleton.mp ((List.mem_append.mp hafter).resolve_left hbefore)
  | giveUp get idle making held hmaking =>
    cases List.mem_singleton.mp ((List.mem_append.mp hafter).resolve_left hbefore)
  | _ => exact absurd hafter hbefore

/-- What a get obtains is new, or was idle in front. -/
theorem obtained (handled : Handles time before action after) (hafter : (get, mark) ∈ after.held)
    (hbefore : (get, mark) ∉ before.held) :
    (∃ object, action = .move (.finish get object) ∧ get ∈ before.making ∧ mark = time) ∨
      (action = .move (.take get) ∧ before.idle.head? = some (some mark)) := by
  cases handled with
  | reuse other mark idle making held =>
    cases List.mem_singleton.mp ((List.mem_append.mp hafter).resolve_left hbefore)
    exact .inr ⟨rfl, rfl⟩
  | finish other object idle making held hmaking =>
    cases List.mem_singleton.mp ((List.mem_append.mp hafter).resolve_left hbefore)
    exact .inl ⟨object, rfl, hmaking, rfl⟩
  | release guard other idle making held hheld =>
    exact absurd (List.mem_filter.mp hafter).1 hbefore
  | drop guard other idle making held hheld =>
    exact absurd (List.mem_filter.mp hafter).1 hbefore
  | _ => exact absurd hafter hbefore

/-- A get goes on making its object until it has it or is given up. -/
theorem making (handled : Handles time before action after) (hmaking : get ∈ before.making) :
    get ∈ after.making ∨ action = .move (.cancel get) ∨
      ∃ object, action = .move (.finish get object) ∧ (get, time) ∈ after.held := by
  cases handled with
  | claim other idle making held => exact .inl (List.mem_append_left _ hmaking)
  | refill other idle making held => exact .inl (List.mem_append_left _ hmaking)
  | finish other object idle making held hother =>
    by_cases hsame : get = other
    · subst hsame
      exact .inr (.inr ⟨object, rfl, List.mem_append_right _ List.mem_cons_self⟩)
    · exact .inl ((List.mem_erase_of_ne hsame).mpr hmaking)
  | giveUp other idle making held hother =>
    by_cases hsame : get = other
    · exact .inr (.inl (by rw [hsame]))
    · exact .inl ((List.mem_erase_of_ne hsame).mpr hmaking)
  | _ => exact .inl hmaking

theorem serves (handled : Handles time before (.move (.take get) : Act α) after) :
    before.Serves after get := by
  cases handled with
  | reuse get mark idle making held => exact ⟨rfl, List.mem_append_right _ List.mem_cons_self⟩
  | refill get idle making held => exact ⟨rfl, List.mem_append_right _ List.mem_cons_self⟩

/-- A get that takes a vacant slot makes an object. -/
theorem refilled (handled : Handles time before (.move (.take get) : Act α) after)
    (hvacant : before.idle.head? = some none) : get ∈ after.making := by
  cases handled with
  | reuse get mark idle making held => cases hvacant
  | refill get idle making held => exact List.mem_append_right _ List.mem_cons_self

end Handles

/-! ### Whole runs -/

namespace Marked

variable {marked after : Marked α} {action : Act α} {history : List (Marked α × Act α)}
  {capacity get mark : Nat}

/-- The objects made in a run, in order. -/
def made (history : List (Marked α × Act α)) : List Nat :=
  Run.observed (fun marked action ↦ made? marked.time action) history

/-- The objects dropped with their guards. -/
def dropped (history : List (Marked α × Act α)) : List Nat :=
  Run.observed (fun marked action ↦ marked.places.dropped? action) history

/-- The slots taken, in order. -/
def taken (history : List (Marked α × Act α)) : List (Option Nat) :=
  Run.observed (fun marked action ↦ marked.places.taken? action) history

/-- The slots that came back, in order. -/
def returned (history : List (Marked α × Act α)) : List (Option Nat) :=
  Run.observed (fun marked action ↦ marked.places.returned? action) history

theorem mem_dropped {guard : Nat} (hentry : (marked, .move (.giveBack guard false)) ∈ history)
    (hobject : marked.places.object? guard = some mark) : mark ∈ dropped history :=
  List.mem_filterMap.mpr ⟨_, hentry, hobject⟩

theorem handles_of_act? (h : marked.marks.Accounted) (possible : marked.act? action = some after) :
    Handles marked.time marked.places action after.places := by
  cases action with
  | move step => exact handles_of_step? h (marks_move possible)
  | change guard object =>
    rw [places, places, marks_change h.nodup_guards possible]
    exact .change guard object _

theorem accounted_of_act? (h : marked.marks.Accounted)
    (possible : marked.act? action = some after) : after.marks.Accounted := by
  cases action with
  | move step => exact h.moves (moves_of_step? (marks_move possible))
  | change guard object =>
    rw [marks_change h.nodup_guards possible]
    exact h

/-- What is known of a run of marked objects. -/
structure Followed (history : List (Marked α × Act α)) (marked : Marked α) : Prop where
  accounted : marked.marks.Accounted
  /-- Every object made is held, idle or dropped. -/
  conserved : (marked.places.objects ++ dropped history).Perm (made history)
  nodup : (made history).Nodup
  made_lt : ∀ mark ∈ made history, mark < marked.time
  idle_eq : taken history ++ marked.places.idle = returned history

namespace Followed

theorem empty (capacity : Nat) : Followed [] (Marked.ofCapacity capacity : Marked α) where
  accounted := .ofCapacity capacity
  conserved := .refl _
  nodup := .nil
  made_lt := fun _ hmark ↦ nomatch hmark
  idle_eq := rfl

theorem act (h : Followed history marked) (possible : marked.act? action = some after) :
    Followed (history ++ [(marked, action)]) after := by
  have handled := handles_of_act? h.accounted possible
  have hdistinct : (marked.places.held.map Prod.fst).Nodup := h.accounted.nodup_guards
  have hmade : made (history ++ [(marked, action)]) =
      made history ++ (made? marked.time action).toList :=
    Run.observed_append_singleton _ history marked action
  have hdropped : dropped (history ++ [(marked, action)]) =
      dropped history ++ (marked.places.dropped? action).toList :=
    Run.observed_append_singleton _ history marked action
  have htaken : taken (history ++ [(marked, action)]) =
      taken history ++ (marked.places.taken? action).toList :=
    Run.observed_append_singleton _ history marked action
  have hreturned : returned (history ++ [(marked, action)]) =
      returned history ++ (marked.places.returned? action).toList :=
    Run.observed_append_singleton _ history marked action
  have hnew : ∀ mark ∈ (made? marked.time action).toList, mark = marked.time := fun mark hmark ↦
    eq_of_mem_made? hmark
  refine ⟨accounted_of_act? h.accounted possible, ?_, ?_, ?_, ?_⟩
  · rw [hmade, hdropped]
    refine List.perm_iff_count.mpr fun mark ↦ ?_
    have hbefore := h.conserved.count_eq mark
    have hstep := (handled.objects_perm hdistinct).count_eq mark
    simp only [List.count_append] at hbefore hstep ⊢
    omega
  · rw [hmade, List.nodup_append]
    refine ⟨h.nodup, ?_, fun old hold mark hmark hsame ↦ ?_⟩
    · cases made? marked.time action <;> simp
    · have hlt := h.made_lt old hold
      rw [hsame, hnew mark hmark] at hlt
      exact Nat.lt_irrefl _ hlt
  · rw [hmade, time_of_act? possible]
    intro mark hmark
    rcases List.mem_append.mp hmark with hold | hlast
    · exact Nat.lt_succ_of_lt (h.made_lt mark hold)
    · rw [hnew mark hlast]
      exact Nat.lt_succ_self _
  · rw [htaken, hreturned, List.append_assoc, handled.idle_eq hdistinct, ← List.append_assoc,
      h.idle_eq]

theorem nodup_objects (h : Followed history marked) : marked.places.objects.Nodup := by
  have hall := h.conserved.nodup_iff.mpr h.nodup
  exact (List.nodup_append.mp hall).1

theorem not_mem_of_dropped (h : Followed history marked) (hdropped : mark ∈ dropped history) :
    mark ∉ marked.places.objects := by
  have hall := h.conserved.nodup_iff.mpr h.nodup
  exact fun hmark ↦ (List.nodup_append.mp hall).2.2 mark hmark mark hdropped rfl

theorem lt_time (h : Followed history marked) (hmark : mark ∈ marked.places.objects) :
    mark < marked.time :=
  h.made_lt mark (h.conserved.mem_iff.mp (List.mem_append_left _ hmark))

end Followed

section Runs

variable (run : Run act? (ofCapacity capacity : Marked α) history marked)
include run

theorem followed_of_run : Followed history marked := by
  induction run with
  | start => exact .empty capacity
  | step _ possible ih => exact ih.act possible

/-- An object is not in the pool before the time that marks it. -/
theorem lt_time_of_run : ∀ state ∈ Run.states history marked, ∀ mark ∈ state.places.objects,
    mark < marked.time := by
  induction run with
  | start =>
    have hnone : ∀ mark ∈ (ofCapacity capacity : Marked α).places.objects, mark < 0 := nofun
    exact List.forall_mem_singleton.mpr hnone
  | @step history before after action run possible ih =>
    have hafter := (followed_of_run run).act possible
    refine Run.forall_states_step (fun state hstate mark hmark ↦ ?_) fun mark ↦ hafter.lt_time
    rw [time_of_act? possible]
    exact Nat.lt_succ_of_lt (ih state hstate mark hmark)

end Runs

/-- The object was put back with its guard, and has been idle ever since. -/
def PutBack (history : List (Marked α × Act α)) (marked : Marked α) (mark : Nat) : Prop :=
  ∃ earlier before guard later,
    history = earlier ++ (before, .move (.giveBack guard true)) :: later ∧
      (guard, mark) ∈ before.places.held ∧
      ∀ state ∈ Run.states later marked, some mark ∈ state.places.idle

theorem putBack_of_idle (run : Run act? (ofCapacity capacity) history marked)
    (hidle : some mark ∈ marked.places.idle) : PutBack history marked mark := by
  induction run with
  | start => cases hidle
  | @step history before after action run possible ih =>
    by_cases hbefore : some mark ∈ before.places.idle
    · obtain ⟨earlier, state, guard, later, rfl, hheld, hsince⟩ := ih hbefore
      exact ⟨earlier, state, guard, later ++ [(before, action)], by simp, hheld,
        Run.forall_states_step hsince hidle⟩
    · have handled := handles_of_act? (followed_of_run run).accounted possible
      obtain ⟨guard, rfl, hheld⟩ := handled.released hidle hbefore
      exact ⟨history, before, guard, [], rfl, hheld, List.forall_mem_singleton.mpr hidle⟩

/-- The get makes an object for its slot: it goes on until it has the object, or is given up. -/
def Refills (get : Nat) (later : List (Marked α × Act α)) (marked : Marked α) : Prop :=
  (∀ state ∈ Run.states later marked, get ∈ state.places.making) ∨
    ∃ meanwhile before action rest, later = meanwhile ++ (before, action) :: rest ∧
      (∀ state ∈ Run.states meanwhile before, get ∈ state.places.making) ∧
      (action = .move (.cancel get) ∨ ∃ object after, action = .move (.finish get object) ∧
        before.act? action = some after ∧ (get, before.time) ∈ after.places.held)

theorem refills_of_run {start : Marked α} (h : start.marks.Accounted)
    (hmaking : get ∈ start.places.making) (run : Run act? start history marked) :
    Refills get history marked := by
  induction run with
  | start => exact .inl (List.forall_mem_singleton.mpr hmaking)
  | @step history before after action run possible ih =>
    rcases ih with hmakes | ⟨meanwhile, state, ended, rest, rfl, hmakes, hended⟩
    · have haccounted : before.marks.Accounted :=
        run.invariant (fun marked ↦ marked.marks.Accounted) h fun _ _ _ hbefore hpossible ↦
          accounted_of_act? hbefore hpossible
      have hbefore : get ∈ before.places.making := hmakes before (by simp [Run.states])
      rcases (handles_of_act? haccounted possible).making hbefore with
        hafter | hcancel | ⟨object, hfinish, hheld⟩
      · exact .inl (Run.forall_states_step hmakes hafter)
      · exact .inr ⟨history, before, action, [], rfl, hmakes, .inl hcancel⟩
      · exact .inr ⟨history, before, action, [], rfl, hmakes,
          .inr ⟨object, after, hfinish, possible, hheld⟩⟩
    · exact .inr ⟨meanwhile, state, ended, rest ++ [(before, action)], by simp, hmakes, hended⟩

/-- How the objects of a pool and its slots change hands. -/
structure Exclusive (history : List (Marked α × Act α)) (marked : Marked α) : Prop where
  /-- At no time is an object held by two guards, or held and idle, or idle twice, and no guard
  holds two objects. -/
  apart : ∀ state ∈ Run.states history marked,
    state.places.objects.Nodup ∧ (state.places.held.map Prod.fst).Nodup
  /-- Every object made is held, idle or dropped. -/
  conserved : (marked.places.objects ++ dropped history).Perm (made history)
  /-- A get obtains an object that it has made itself and that was never seen before, or one that
  was put back and has been idle since. -/
  obtained : ∀ earlier before action later after, history = earlier ++ (before, action) :: later →
    before.act? action = some after → ∀ get mark, (get, mark) ∈ after.places.held →
      (get, mark) ∉ before.places.held →
      (∃ object, action = .move (.finish get object) ∧ get ∈ before.places.making ∧
        ∀ state ∈ Run.states earlier before, mark ∉ state.places.objects) ∨
      (action = .move (.take get) ∧ PutBack earlier before mark)
  /-- An object whose guard ends without a release is never held or idle again. -/
  gone : ∀ earlier before guard later mark,
    history = earlier ++ (before, .move (.giveBack guard false)) :: later →
      (guard, mark) ∈ before.places.held →
      ∀ state ∈ Run.states later marked, mark ∉ state.places.objects
  /-- Slots are taken in the order in which they came back. -/
  inOrder : taken history ++ marked.places.idle = returned history
  /-- The next slot in this order is what a get takes. -/
  served : ∀ earlier before get later after,
    history = earlier ++ (before, .move (.take get)) :: later →
      before.act? (.move (.take get)) = some after → before.places.Serves after.places get
  /-- A vacant slot is refilled by the get that takes it. -/
  refilled : ∀ earlier before get later,
    history = earlier ++ (before, .move (.take get)) :: later →
      before.places.idle.head? = some none → Refills get later marked

theorem exclusive (run : Run act? (ofCapacity capacity) history marked) :
    Exclusive history marked := by
  have h := followed_of_run run
  refine ⟨fun state hstate ↦ ?_, h.conserved, ?_, ?_, h.idle_eq, ?_, ?_⟩
  · obtain ⟨earlier, hearlier⟩ := run.exists_of_mem_states hstate
    have hfollowed := followed_of_run hearlier
    exact ⟨hfollowed.nodup_objects, hfollowed.accounted.nodup_guards⟩
  · rintro earlier before action later after rfl hafter get mark hheld hnot
    obtain ⟨first, -⟩ := run.split
    have handled := handles_of_act? (followed_of_run first).accounted hafter
    rcases handled.obtained hheld hnot with ⟨object, haction, hmaking, rfl⟩ | ⟨haction, hfront⟩
    · refine .inl ⟨object, haction, hmaking, fun state hstate hmark ↦ ?_⟩
      exact Nat.lt_irrefl _ (lt_time_of_run first state hstate _ hmark)
    · exact .inr ⟨haction, putBack_of_idle first (List.mem_of_head? hfront)⟩
  · rintro earlier before guard later mark rfl hheld state hstate
    obtain ⟨first, next, hnext, rest⟩ := run.split
    obtain ⟨meanwhile, hmeanwhile⟩ := rest.exists_of_mem_states hstate
    have hwhole := (first.step hnext).append hmeanwhile
    have hdistinct := (followed_of_run first).accounted.nodup_guards
    refine (followed_of_run hwhole).not_mem_of_dropped (mem_dropped ?_
      (Places.object?_eq hdistinct hheld))
    exact List.mem_append_left _ (List.mem_append_right _ List.mem_cons_self)
  · rintro earlier before get later after rfl hafter
    obtain ⟨first, -⟩ := run.split
    exact (handles_of_act? (followed_of_run first).accounted hafter).serves
  · rintro earlier before get later rfl hvacant
    obtain ⟨first, next, hnext, rest⟩ := run.split
    have haccounted := (followed_of_run first).accounted
    have hmaking := (handles_of_act? haccounted hnext).refilled hvacant
    exact refills_of_run (accounted_of_act? haccounted hnext) hmaking rest

end Marked

/-- Every run has its objects marked, and so followed they are exclusive: whatever gets are given up
and however often the factory fails, no two hold one object, none that was dropped comes back, and the
slots go round in order. -/
theorem exclusive_of_run {capacity : Nat} {history : List (Pool α × Act α)} {pool : Pool α}
    (run : Run act? (Pool.ofCapacity capacity) history pool) :
    ∃ (followed : List (Marked α × Act α)) (marked : Marked α),
      Run Marked.act? (.ofCapacity capacity) followed marked ∧
        followed.map (fun entry ↦ (entry.1.plain, entry.2)) = history ∧ marked.plain = pool ∧
        Marked.Exclusive followed marked := by
  suffices hmarked : ∃ (followed : List (Marked α × Act α)) (marked : Marked α),
      Run Marked.act? (.ofCapacity capacity) followed marked ∧
        followed.map (fun entry ↦ (entry.1.plain, entry.2)) = history ∧ marked.plain = pool by
    obtain ⟨followed, marked, hrun, hhistory, hpool⟩ := hmarked
    exact ⟨followed, marked, hrun, hhistory, hpool, Marked.exclusive hrun⟩
  induction run with
  | start => exact ⟨[], .ofCapacity capacity, .start, rfl, rfl⟩
  | @step history before after action run possible ih =>
    obtain ⟨followed, marked, hrun, rfl, rfl⟩ := ih
    rw [Marked.act?_plain] at possible
    obtain ⟨next, hnext, rfl⟩ := Option.map_eq_some_iff.mp possible
    exact ⟨followed ++ [(marked, action)], next, hrun.step hnext, by simp, rfl⟩

/-- Gets of a pool with one slot. The first object is changed and released, the second get has it
again and drops it; the get that takes the vacant slot is given up, and the one after it makes an
object like the first. -/
def roundActs : List (Act Nat) :=
  [.move (.ask 0), .move (.fail 0), .move (.finish 0 7), .change 0 8, .move (.giveBack 0 true),
    .move .signal, .move (.ask 1), .move (.take 1), .move (.giveBack 1 false), .move .signal,
    .move (.ask 2), .move (.take 2), .move (.cancel 2), .move .signal, .move (.ask 3),
    .move (.take 3), .move (.finish 3 7)]

theorem exclusive_of_roundActs : ∃ (history : List (Pool Nat × Act Nat)) (pool : Pool Nat),
    Run act? (Pool.ofCapacity 1) history pool ∧ pool.held = [(3, 7)] ∧
      ∃ (followed : List (Marked Nat × Act Nat)) (marked : Marked Nat),
        Run Marked.act? (.ofCapacity 1) followed marked ∧
          followed.map (fun entry ↦ (entry.1.plain, entry.2)) = history ∧ marked.plain = pool ∧
          Marked.Exclusive followed marked := by
  have hfollow : (Run.follow? act? (Pool.ofCapacity 1) roundActs).map
      (fun taken ↦ taken.2.held) = some [(3, 7)] := by
    decide
  obtain ⟨⟨history, pool⟩, htaken, hheld⟩ := Option.map_eq_some_iff.mp hfollow
  have run := Run.of_follow? htaken
  exact ⟨history, pool, run, hheld, exclusive_of_run run⟩

end GelfCourier.Pool
