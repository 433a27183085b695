import GelfCourier.Concurrent.Pool
import GelfCourier.Proofs.Concurrent.Balance
import GelfCourier.Proofs.Run

/-!
The slots of a pool. Every slot claimed is in the idle queue, or a get makes its object, or a guard
holds it. No step makes a slot or loses one except the claim of a get, and no claim exceeds the
capacity; so a get waits only while every slot is in use or on its way. The slot of a guard that
ends, and of a get given up while it makes an object, goes back (`GoesBack`); a get given up with a
permit leaves it to the one that has waited longest (`Promotes`).
-/

set_option autoImplicit false

namespace GelfCourier.Pool

variable {α : Type}

/-- Gets and guards under way. -/
def numbers (pool : Pool α) : List Nat :=
  pool.idle.poppers ++ pool.making ++ pool.held.map Prod.fst

structure Accounted (pool : Pool α) : Prop where
  idle : pool.idle.Balanced
  created_le : pool.created ≤ pool.capacity
  created_eq : pool.created =
    pool.idle.items.length + pool.making.length + pool.held.length
  full : pool.idle.waiting ≠ [] → pool.created = pool.capacity
  distinct : ∀ number, pool.numbers.count number ≤ 1

variable {pool : Pool α} {get : Nat}

theorem count_numbers (pool : Pool α) (number : Nat) : pool.numbers.count number =
    pool.idle.poppers.count number + pool.making.count number +
      (pool.held.map Prod.fst).count number := by
  unfold numbers
  rw [List.count_append, List.count_append]

theorem isSome_object?_iff (pool : Pool α) (guard : Nat) :
    (pool.object? guard).isSome = true ↔ guard ∈ pool.held.map Prod.fst := by
  simp [object?, Option.isSome_map, List.find?_isSome]

theorem count_numbers_of_unknown (hunknown : ¬ pool.isKnown get = true) :
    pool.numbers.count get = 0 := by
  rw [List.count_eq_zero]
  intro hmem
  apply hunknown
  unfold isKnown
  rcases List.mem_append.mp hmem with hidle | hheld
  · rcases List.mem_append.mp hidle with hpopper | hmaking
    · have hknown : pool.idle.isKnown get = true := by
        rcases List.mem_append.mp hpopper with hwaiting | hgranted
        · simp [Queue.isKnown, hwaiting]
        · simp [Queue.isKnown, Queue.isReady, hgranted]
      rw [hknown]
      rfl
    · have hmaking : pool.isMaking get = true := by simpa [isMaking] using hmaking
      rw [hmaking, Bool.or_true]
      rfl
  · rw [(isSome_object?_iff pool get).mpr hheld, Bool.or_true]

/-- A slot that is taken is held at once, or an object is made for it. -/
theorem take_eq (pool : Pool α) (get : Nat) :
    (∃ object, pool.take get = { pool with
      idle := (pool.idle.take get).1
      held := pool.held ++ [(get, object)] }) ∨
    pool.take get = { pool with
      idle := (pool.idle.take get).1
      making := pool.making ++ [get] } := by
  unfold take
  split
  · next idle object htake =>
    rw [htake]
    exact .inl ⟨object, rfl⟩
  · next idle item _ htake =>
    rw [htake]
    exact .inr rfl

/-! ### What a step does -/

/-- One step, with what makes it possible. -/
inductive Moves (pool : Pool α) : Step α → Pool α → Prop where
  | ask (get : Nat) (hunknown : ¬ pool.isKnown get = true) : Moves pool (.ask get) (pool.ask get)
  | take (get : Nat) (hready : pool.isReady get = true) : Moves pool (.take get) (pool.take get)
  | fail (get : Nat) (hmaking : pool.isMaking get = true) : Moves pool (.fail get) pool
  | finish (get : Nat) (object : α) (hmaking : pool.isMaking get = true) :
      Moves pool (.finish get object) (pool.finish get object)
  | giveBack (guard : Nat) (object : α) (keep : Bool) (hobject : pool.object? guard = some object) :
      Moves pool (.giveBack guard keep) (pool.giveBack guard keep)
  | cancel (get : Nat) (hknown : (pool.isMaking get || pool.idle.isKnown get) = true) :
      Moves pool (.cancel get) (pool.cancel get)
  | signal (hpending : pool.idle.unsignalled ≠ 0) : Moves pool .signal pool.signal

theorem moves_of_step? {action : Step α} {after : Pool α}
    (hpossible : pool.step? action = some after) : pool.Moves action after := by
  cases action with
  | ask get =>
    obtain ⟨hunknown, hafter⟩ := Option.ite_none_left_eq_some.mp hpossible
    cases hafter
    exact .ask get hunknown
  | take get =>
    obtain ⟨hready, hafter⟩ := Option.ite_none_right_eq_some.mp hpossible
    cases hafter
    exact .take get hready
  | fail get =>
    obtain ⟨hmaking, hafter⟩ := Option.ite_none_right_eq_some.mp hpossible
    cases hafter
    exact .fail get hmaking
  | finish get object =>
    obtain ⟨hmaking, hafter⟩ := Option.ite_none_right_eq_some.mp hpossible
    cases hafter
    exact .finish get object hmaking
  | giveBack guard keep =>
    obtain ⟨hsome, hafter⟩ := Option.ite_none_right_eq_some.mp hpossible
    cases hafter
    obtain ⟨object, hobject⟩ := Option.isSome_iff_exists.mp hsome
    exact .giveBack guard object keep hobject
  | cancel get =>
    obtain ⟨hknown, hafter⟩ := Option.ite_none_right_eq_some.mp hpossible
    cases hafter
    exact .cancel get hknown
  | signal =>
    obtain ⟨hpending, hafter⟩ := Option.ite_none_left_eq_some.mp hpossible
    cases hafter
    exact .signal hpending

/-! ### What a step leaves accounted for -/

/-- The guard leaves, with every entry of its number. -/
theorem count_numbers_giveBack {guard : Nat} {object : α}
    (hobject : pool.object? guard = some object) (keep : Bool) (number : Nat) :
    (pool.giveBack guard keep).numbers.count number +
        (if guard = number then (pool.held.map Prod.fst).count guard else 0) =
      pool.numbers.count number := by
  have hfewer := Numbered.count_filter_ne_add Prod.fst pool.held guard number
  have hsame (slot : Option α) : (pool.idle.store slot).poppers = pool.idle.poppers := rfl
  unfold giveBack
  rw [hobject]
  simp only [count_numbers, hsame]
  omega

theorem count_numbers_cancel (hknown : get ∈ pool.making ∨ get ∈ pool.idle.poppers)
    (number : Nat) : (pool.cancel get).numbers.count number + (if get = number then 1 else 0) =
      pool.numbers.count number := by
  unfold cancel
  by_cases hmaking : pool.making.contains get = true
  · have hfewer := Numbered.count_erase_add (List.contains_iff_mem.mp hmaking) number
    have hsame : (pool.idle.store none).poppers = pool.idle.poppers := rfl
    rw [if_pos hmaking]
    simp only [count_numbers, hsame]
    omega
  · have hpopper := hknown.resolve_left fun hmem ↦ hmaking (List.contains_iff_mem.mpr hmem)
    have hfewer := Queue.count_poppers_cancel hpopper number
    rw [if_neg hmaking]
    simp only [count_numbers]
    omega

namespace Accounted

theorem ofCapacity (capacity : Nat) : (Pool.ofCapacity capacity : Pool α).Accounted where
  idle := .empty
  created_le := Nat.zero_le _
  created_eq := rfl
  full := fun h ↦ absurd rfl h
  distinct := fun _ ↦ Nat.zero_le _

/-- A number is in one place only. -/
theorem counts (h : pool.Accounted) (number : Nat) : pool.idle.poppers.count number +
    pool.making.count number + (pool.held.map Prod.fst).count number ≤ 1 := by
  rw [← count_numbers]
  exact h.distinct number

theorem distinct_add {before after : List Nat} (hbefore : ∀ number, before.count number ≤ 1)
    (hfresh : before.count get = 0)
    (hafter : ∀ number, after.count number = before.count number + if get = number then 1 else 0)
    (number : Nat) : after.count number ≤ 1 := by
  have hold := hbefore number
  rw [hafter]
  by_cases hsame : get = number
  · rw [if_pos hsame]
    subst hsame
    omega
  · rw [if_neg hsame]
    exact hold

theorem ask (h : pool.Accounted) (hunknown : ¬ pool.isKnown get = true) :
    (pool.ask get).Accounted := by
  have hfresh := count_numbers_of_unknown hunknown
  have hcreated := h.created_eq
  have hle := h.created_le
  unfold Pool.ask
  by_cases hroom : pool.created < pool.capacity
  · rw [if_pos hroom]
    refine ⟨h.idle, by dsimp only; omega, ?_, fun hwaiting ↦ ?_,
      distinct_add h.distinct hfresh fun number ↦ ?_⟩
    · simp only [List.length_append, List.length_singleton]
      omega
    · have hfull := h.full hwaiting
      omega
    · simp only [count_numbers, List.count_append, List.count_singleton, beq_iff_eq]
      omega
  · rw [if_neg hroom]
    refine ⟨h.idle.ask get, hle, ?_, fun _ ↦ by dsimp only; omega,
      distinct_add h.distinct hfresh fun number ↦ ?_⟩
    · rw [Queue.items_ask]
      exact hcreated
    · simp only [count_numbers, Queue.count_poppers_ask h.idle.isOpen]
      omega

theorem take (h : pool.Accounted) (hready : pool.isReady get = true) :
    (pool.take get).Accounted := by
  have hgranted : pool.idle.granted.contains get = true := by
    rw [← h.idle.isReady_eq]
    exact hready
  have hidle := h.idle.take hgranted
  have hcount := fun number ↦ Queue.count_poppers_take hgranted number
  have hcreated := h.created_eq
  have hitems : (pool.idle.take get).1.items.length + 1 = pool.idle.items.length := by
    have hsome := List.length_pos_iff.mpr (h.idle.items_ne_nil hgranted)
    simp only [Queue.take, List.length_tail]
    omega
  rcases take_eq pool get with ⟨object, htake⟩ | htake
  · rw [htake]
    refine ⟨hidle, h.created_le, ?_, h.full, fun number ↦ ?_⟩
    · simp only [List.length_append, List.length_singleton]
      omega
    · have hold := h.counts number
      have hmoved := hcount number
      simp only [count_numbers, List.map_append, List.map_singleton, List.count_append,
        List.count_singleton, beq_iff_eq]
      omega
  · rw [htake]
    refine ⟨hidle, h.created_le, ?_, h.full, fun number ↦ ?_⟩
    · simp only [List.length_append, List.length_singleton]
      omega
    · have hold := h.counts number
      have hmoved := hcount number
      simp only [count_numbers, List.count_append, List.count_singleton, beq_iff_eq]
      omega

theorem finish (h : pool.Accounted) (object : α) (hmaking : pool.isMaking get = true) :
    (pool.finish get object).Accounted := by
  have hmem : get ∈ pool.making := by simpa [isMaking] using hmaking
  have hpositive := List.length_pos_of_mem hmem
  have hcreated := h.created_eq
  refine ⟨h.idle, h.created_le, ?_, h.full, fun number ↦ ?_⟩
  · simp only [Pool.finish, List.length_append, List.length_singleton,
      List.length_erase_of_mem hmem]
    omega
  · have hold := h.distinct number
    have hmoved := Numbered.count_erase_add hmem number
    simp only [Pool.finish, count_numbers, List.map_append, List.map_singleton, List.count_append,
      List.count_singleton, beq_iff_eq] at hold ⊢
    omega

theorem count_held (h : pool.Accounted) {guard : Nat} {object : α}
    (hobject : pool.object? guard = some object) : (pool.held.map Prod.fst).count guard = 1 := by
  have hsome : (pool.object? guard).isSome = true := by rw [hobject]; rfl
  have hpositive := List.count_pos_iff.mpr ((isSome_object?_iff pool guard).mp hsome)
  have hone := h.counts guard
  omega

theorem giveBack (h : pool.Accounted) (keep : Bool) : (pool.giveBack get keep).Accounted := by
  cases hobject : pool.object? get with
  | none =>
    rw [Pool.giveBack, hobject]
    exact h
  | some object =>
    have hcounts := count_numbers_giveBack hobject keep
    have hcreated := h.created_eq
    -- One entry leaves, because no other get or guard has this number.
    have hlength := Numbered.length_filter_ne_add Prod.fst pool.held get
    have honce := h.count_held hobject
    unfold Pool.giveBack at hcounts ⊢
    rw [hobject] at hcounts ⊢
    refine ⟨h.idle.store _, h.created_le, ?_, h.full, fun number ↦ ?_⟩
    · simp only [Queue.store, List.length_append, List.length_singleton]
      omega
    · have hold := h.distinct number
      have hfewer := hcounts number
      omega

/-- A get that is not making an object asks for a slot. -/
theorem mem_making_or_poppers (h : pool.Accounted)
    (hknown : (pool.isMaking get || pool.idle.isKnown get) = true) :
    get ∈ pool.making ∨ get ∈ pool.idle.poppers := by
  rw [Queue.isKnown, h.idle.isReady_eq] at hknown
  simpa [isMaking, Queue.poppers] using hknown

theorem cancel (h : pool.Accounted)
    (hknown : (pool.isMaking get || pool.idle.isKnown get) = true) :
    (pool.cancel get).Accounted := by
  have hcounts := count_numbers_cancel (h.mem_making_or_poppers hknown)
  have hcreated := h.created_eq
  have hdistinct : ∀ number, (pool.cancel get).numbers.count number ≤ 1 := fun number ↦ by
    have hold := h.distinct number
    have hfewer := hcounts number
    omega
  unfold Pool.cancel at hdistinct ⊢
  by_cases hmaking : pool.making.contains get = true
  · rw [if_pos hmaking] at hdistinct ⊢
    have hmem : get ∈ pool.making := by simpa using hmaking
    have hpositive := List.length_pos_of_mem hmem
    refine ⟨h.idle.store _, h.created_le, ?_, h.full, hdistinct⟩
    simp only [Queue.store, List.length_append, List.length_singleton,
      List.length_erase_of_mem hmem]
    omega
  · rw [if_neg hmaking] at hdistinct ⊢
    refine ⟨h.idle.cancel get, h.created_le, ?_,
      fun hwaiting ↦ h.full (Queue.waiting_ne_nil_of_cancel hwaiting), hdistinct⟩
    rw [Queue.items_cancel]
    exact hcreated

theorem signal (h : pool.Accounted) (hpending : pool.idle.unsignalled ≠ 0) :
    pool.signal.Accounted := by
  refine ⟨h.idle.signal hpending, h.created_le, ?_, ?_, fun number ↦ ?_⟩
  · unfold Pool.signal Queue.signal
    rw [Queue.items_addPermit]
    exact h.created_eq
  · intro hwaiting
    refine h.full fun hnone ↦ hwaiting ?_
    unfold Pool.signal Queue.signal
    rw [Queue.waiting_addPermit, hnone]
    rfl
  · have hold := h.distinct number
    unfold Pool.signal Queue.signal
    rw [count_numbers] at hold ⊢
    rw [Queue.count_poppers_addPermit]
    exact hold

theorem moves {action : Step α} {after : Pool α} (h : pool.Accounted)
    (hmoves : pool.Moves action after) : after.Accounted := by
  cases hmoves with
  | ask get hunknown => exact h.ask hunknown
  | take get hready => exact h.take hready
  | fail get hmaking => exact h
  | finish get object hmaking => exact h.finish object hmaking
  | giveBack guard object keep hobject => exact h.giveBack keep
  | cancel get hknown => exact h.cancel hknown
  | signal hpending => exact h.signal hpending

/-! A number that is in one place is in no other. -/

theorem nodup_numbers (h : pool.Accounted) : pool.numbers.Nodup :=
  List.nodup_iff_count.mpr h.distinct

theorem not_mem_making (h : pool.Accounted) (hpopper : get ∈ pool.idle.poppers) :
    get ∉ pool.making := by
  obtain ⟨howners, -, -⟩ := List.nodup_append.mp h.nodup_numbers
  obtain ⟨-, -, hapart⟩ := List.nodup_append.mp howners
  exact fun hmaking ↦ hapart get hpopper get hmaking rfl

theorem not_mem_granted (h : pool.Accounted) (hwaits : get ∈ pool.idle.waiting) :
    get ∉ pool.idle.granted := by
  obtain ⟨howners, -, -⟩ := List.nodup_append.mp h.nodup_numbers
  obtain ⟨hpoppers, -, -⟩ := List.nodup_append.mp howners
  obtain ⟨-, -, hapart⟩ := List.nodup_append.mp hpoppers
  exact fun hgranted ↦ hapart get hwaits get hgranted rfl

/-- A get under way holds nothing. -/
theorem not_mem_held (h : pool.Accounted) (hget : get ∈ pool.idle.poppers ++ pool.making) :
    get ∉ pool.held.map Prod.fst := by
  obtain ⟨-, -, hapart⟩ := List.nodup_append.mp h.nodup_numbers
  exact fun hheld ↦ hapart get hget get hheld rfl

theorem isKnown_eq_false (h : pool.Accounted) {number : Nat}
    (hnone : pool.numbers.count number = 0) : pool.isKnown number = false := by
  have hobject := isSome_object?_iff pool number
  have habsent := List.count_eq_zero.mp hnone
  rw [← Bool.not_eq_true, Pool.isKnown, Queue.isKnown, h.idle.isReady_eq]
  simpa [numbers, Queue.poppers, isMaking, hobject, and_assoc] using habsent

/-- Where a get waits, every slot is in use, or promised to another get, or about to be. -/
theorem slots_of_waiting (h : pool.Accounted) (hwaiting : pool.idle.waiting ≠ []) :
    pool.held.length + pool.making.length +
      (pool.idle.granted.length + pool.idle.unsignalled) = pool.capacity := by
  have hcreated := h.created_eq
  have hitems := h.idle.items_eq
  have hfull := h.full hwaiting
  have hpermits : pool.idle.permits = 0 :=
    Decidable.byContradiction fun hfree ↦ hwaiting (h.idle.waiting_eq hfree)
  omega

theorem granted_eq_nil (h : pool.Accounted) (hnobody : ∀ get, pool.isReady get = false) :
    pool.idle.granted = [] := by
  refine List.eq_nil_iff_forall_not_mem.mpr fun get hgranted ↦ ?_
  have hready := hnobody get
  rw [isReady, h.idle.isReady_eq] at hready
  simp [hgranted] at hready

end Accounted

/-! ### A slot that goes back -/

/-- What ending a guard does to a pool, with the permit of its slot. -/
structure Returns (pool : Pool α) (guard : Nat) (slot : Option α) (after : Pool α) : Prop where
  items_eq : after.idle.items = pool.idle.items ++ [slot]
  gone : after.object? guard = none
  created_eq : after.created = pool.created
  /-- The get that asked first is granted a slot. -/
  granted_eq : after.idle.granted = pool.idle.granted ++ pool.idle.waiting.head?.toList
  waiting_eq : after.idle.waiting = pool.idle.waiting.tail
  /-- Where nobody waits, a slot is free for the next get. -/
  permits_eq : pool.idle.waiting = [] → after.idle.permits = pool.idle.permits + 1

theorem returns_giveBack {pool : Pool α} {guard : Nat} {object : α}
    (hobject : pool.object? guard = some object) (keep : Bool) :
    Returns pool guard (if keep then some object else none) (pool.giveBack guard keep).signal := by
  unfold giveBack
  rw [hobject]
  unfold signal Queue.signal Queue.addPermit Queue.store
  refine ⟨?_, ?_, ?_, ?_, ?_, ?_⟩
  · dsimp only
    split <;> rfl
  · simp [object?, List.find?_eq_none]
  · rfl
  · dsimp only
    cases pool.idle.waiting <;> simp
  · dsimp only
    cases pool.idle.waiting <;> rfl
  · intro hnone
    dsimp only
    rw [hnone]

/-! ### Slots that change hands -/

/-- A slot goes back to the idle queue, and the get or guard that had it is gone. -/
structure GoesBack (pool : Pool α) (number : Nat) (slot : Option α) (after : Pool α) : Prop where
  items_eq : after.idle.items = pool.idle.items ++ [slot]
  /-- Its permit is still to come. -/
  unsignalled_eq : after.idle.unsignalled = pool.idle.unsignalled + 1
  gone : after.isKnown number = false
  making_eq : after.making = pool.making.erase number
  held_eq : after.held = pool.held.filter fun entry ↦ entry.1 ≠ number
  created_eq : after.created = pool.created
  /-- Those that ask for a slot are as they were. -/
  poppers_eq : after.idle.waiting = pool.idle.waiting ∧ after.idle.granted = pool.idle.granted ∧
    after.idle.permits = pool.idle.permits

/-- A permit goes to the get that has waited longest, or stays free; of the gets that had one these
are `kept`. -/
structure Promotes (pool : Pool α) (kept : List Nat) (after : Pool α) : Prop where
  granted_eq : after.idle.granted = kept ++ pool.idle.waiting.take 1
  waiting_eq : after.idle.waiting = pool.idle.waiting.drop 1
  permits_eq : after.idle.permits =
    pool.idle.permits + if pool.idle.waiting = [] then 1 else 0
  items_eq : after.idle.items = pool.idle.items
  making_eq : after.making = pool.making
  held_eq : after.held = pool.held
  created_eq : after.created = pool.created

theorem promotes_addPermit (pool : Pool α) (kept : List Nat) (unsignalled : Nat) :
    Promotes pool kept
      { pool with
        idle := { pool.idle with granted := kept, unsignalled }.addPermit } := by
  cases hwaiting : pool.idle.waiting <;> constructor <;> simp [Queue.addPermit, hwaiting]

theorem isKnown_cancel (h : pool.Accounted)
    (hknown : (pool.isMaking get || pool.idle.isKnown get) = true) :
    (pool.cancel get).isKnown get = false := by
  have hfewer := count_numbers_cancel (h.mem_making_or_poppers hknown) get
  have hone := h.distinct get
  rw [if_pos rfl] at hfewer
  exact (h.cancel hknown).isKnown_eq_false (by omega)

theorem goesBack_giveBack (h : pool.Accounted) {guard : Nat} {object : α}
    (hobject : pool.object? guard = some object) (keep : Bool) :
    GoesBack pool guard (if keep then some object else none) (pool.giveBack guard keep) := by
  have hgone : (pool.giveBack guard keep).isKnown guard = false := by
    have hfewer := count_numbers_giveBack hobject keep guard
    have hone := h.distinct guard
    rw [if_pos rfl, h.count_held hobject] at hfewer
    exact (h.giveBack keep).isKnown_eq_false (by omega)
  have hheld : guard ∈ pool.held.map Prod.fst :=
    List.count_pos_iff.mp (by rw [h.count_held hobject]; exact Nat.one_pos)
  have hmaking : guard ∉ pool.making := fun hmem ↦
    h.not_mem_held (List.mem_append_right _ hmem) hheld
  unfold giveBack at hgone ⊢
  rw [hobject] at hgone ⊢
  exact ⟨rfl, rfl, hgone, (List.erase_of_not_mem hmaking).symm, rfl, rfl, rfl, rfl, rfl⟩

theorem goesBack_cancel (h : pool.Accounted) (hmaking : get ∈ pool.making) :
    GoesBack pool get none (pool.cancel get) := by
  have hgone := isKnown_cancel h (by rw [isMaking, List.contains_iff_mem.mpr hmaking, Bool.true_or])
  have hheld := h.not_mem_held (List.mem_append_right _ hmaking)
  have hkept : pool.held = pool.held.filter fun entry ↦ entry.1 ≠ get := by
    refine (List.filter_eq_self.mpr fun entry hentry ↦ ?_).symm
    have hother : entry.1 ≠ get := fun hsame ↦ hheld (hsame ▸ List.mem_map_of_mem hentry)
    simpa using hother
  unfold cancel at hgone ⊢
  rw [if_pos (List.contains_iff_mem.mpr hmaking)] at hgone ⊢
  exact ⟨rfl, rfl, hgone, rfl, hkept, rfl, rfl, rfl, rfl⟩

theorem promotes_cancel (h : pool.Accounted) (hgranted : get ∈ pool.idle.granted) :
    Promotes pool (pool.idle.granted.erase get) (pool.cancel get) := by
  have hmaking := mt List.contains_iff_mem.mp (h.not_mem_making (List.mem_append_right _ hgranted))
  rw [cancel, if_neg hmaking, Queue.cancel, if_pos (List.contains_iff_mem.mpr hgranted)]
  exact promotes_addPermit pool _ _

theorem cancel_of_mem_waiting (h : pool.Accounted) (hwaits : get ∈ pool.idle.waiting) :
    pool.cancel get =
      { pool with idle := { pool.idle with waiting := pool.idle.waiting.erase get } } := by
  have hmaking := mt List.contains_iff_mem.mp (h.not_mem_making (List.mem_append_left _ hwaits))
  have hgranted := mt List.contains_iff_mem.mp (h.not_mem_granted hwaits)
  have hrefused : pool.idle.refused.erase get = pool.idle.refused := by
    rw [h.idle.refused_eq]
    rfl
  rw [cancel, if_neg hmaking, Queue.cancel, if_neg hgranted, hrefused]

/-! ### Whole runs -/

/-- Only a get that claims a slot changes how many are claimed. -/
theorem Moves.created {action : Step α} {after : Pool α} (hmoves : pool.Moves action after) :
    after.capacity = pool.capacity ∧ (after.created = pool.created ∨
      ∃ get, action = .ask get ∧ pool.created < pool.capacity ∧
        after.created = pool.created + 1) := by
  cases hmoves with
  | ask get hunknown =>
    unfold Pool.ask
    by_cases hroom : pool.created < pool.capacity
    · rw [if_pos hroom]
      exact ⟨rfl, .inr ⟨get, rfl, hroom, rfl⟩⟩
    · rw [if_neg hroom]
      exact ⟨rfl, .inl rfl⟩
  | take get hready =>
    rcases take_eq pool get with ⟨object, htake⟩ | htake
    · rw [htake]
      exact ⟨rfl, .inl rfl⟩
    · rw [htake]
      exact ⟨rfl, .inl rfl⟩
  | fail get hmaking => exact ⟨rfl, .inl rfl⟩
  | finish get object hmaking => exact ⟨rfl, .inl rfl⟩
  | giveBack guard object keep hobject =>
    unfold Pool.giveBack
    rw [hobject]
    exact ⟨rfl, .inl rfl⟩
  | cancel get hknown =>
    unfold Pool.cancel
    split
    · exact ⟨rfl, .inl rfl⟩
    · exact ⟨rfl, .inl rfl⟩
  | signal hpending => exact ⟨rfl, .inl rfl⟩

theorem accounted {capacity : Nat} {history : List (Pool α × Step α)}
    (run : Run step? (Pool.ofCapacity capacity) history pool) :
    pool.Accounted ∧ pool.capacity = max capacity 1 := by
  refine Run.invariant (fun pool ↦ pool.Accounted ∧ pool.capacity = max capacity 1) run
    ⟨.ofCapacity capacity, rfl⟩ ?_
  rintro before action after ⟨haccounted, hcapacity⟩ hpossible
  have hmoves := moves_of_step? hpossible
  exact ⟨haccounted.moves hmoves, hmoves.created.1.trans hcapacity⟩

/-- Where the slots of a pool of this capacity are. -/
structure SlotsAccounted (capacity : Nat) (pool : Pool α) : Prop where
  created_le : pool.created ≤ max capacity 1
  created_eq : pool.created = pool.idle.length + (pool.held.length + pool.making.length)
  /-- No get or guard has two slots, or has one and waits for another. -/
  distinct : pool.numbers.Nodup
  /-- Objects alive are idle or held. -/
  alive_le : (pool.idle.items.filter Option.isSome).length + pool.held.length ≤ max capacity 1
  /-- Slots are claimed by gets only, one by one, and none is given up. -/
  claimed : ∀ action after, pool.step? action = some after →
    after.created = pool.created ∨ ∃ get, action = .ask get ∧ after.created = pool.created + 1
  /-- A get whose object is not made keeps its slot. -/
  failed : ∀ get ∈ pool.making, pool.step? (.fail get) = some pool
  /-- A get that is given up while it makes an object leaves its slot behind, vacant. -/
  vacated : ∀ get ∈ pool.making, ∃ after, pool.step? (.cancel get) = some after ∧
    GoesBack pool get none after
  /-- One that was granted a slot leaves it to the get that has waited longest. -/
  passed : ∀ get ∈ pool.idle.granted, ∃ after, pool.step? (.cancel get) = some after ∧
    Promotes pool (pool.idle.granted.erase get) after ∧ after.isKnown get = false
  /-- One that waits leaves the others as they were. -/
  withdrawn : ∀ get ∈ pool.idle.waiting, pool.step? (.cancel get) =
    some { pool with idle := { pool.idle with waiting := pool.idle.waiting.erase get } }
  /-- A guard that ends leaves its slot behind, with its object just if it was released. -/
  returned : ∀ guard object keep, pool.object? guard = some object → ∃ after,
    pool.step? (.giveBack guard keep) = some after ∧
      GoesBack pool guard (if keep then some object else none) after
  /-- The permit of a slot that went back follows, for the get that has waited longest. -/
  signalled : pool.idle.unsignalled ≠ 0 → ∃ after, pool.step? .signal = some after ∧
    Promotes pool pool.idle.granted after ∧
      after.idle.unsignalled + 1 = pool.idle.unsignalled
  /-- Where a get waits, every slot is in use, or promised to another get, or about to be. -/
  waiting : pool.idle.waiting ≠ [] → pool.held.length + pool.making.length +
    (pool.idle.granted.length + pool.idle.unsignalled) = max capacity 1
  /-- Once nobody is about to take a slot or to bring one back, a get waits only while other gets
  and guards have all slots. -/
  quiet : (∀ get, pool.isReady get = false) → pool.idle.unsignalled = 0 →
    ∀ get ∈ pool.idle.waiting, get ∉ pool.making ∧ get ∉ pool.held.map Prod.fst ∧
      pool.held.length + pool.making.length = max capacity 1

/-- Slots are neither lost nor made out of nothing in any run of gets and guards, however creations
fail and gets are given up. -/
theorem slotsAccounted_of_run {capacity : Nat} {history : List (Pool α × Step α)}
    (run : Run step? (Pool.ofCapacity capacity) history pool) : SlotsAccounted capacity pool := by
  obtain ⟨h, hcapacity⟩ := accounted run
  have hcreated := h.created_eq
  have hle := h.created_le
  constructor
  case created_le => omega
  case created_eq =>
    unfold Queue.length
    omega
  case distinct => exact h.nodup_numbers
  case alive_le =>
    have hsome := List.length_filter_le Option.isSome pool.idle.items
    omega
  case claimed =>
    intro action after hpossible
    rcases (moves_of_step? hpossible).created.2 with hsame | ⟨get, haction, -, hnext⟩
    · exact .inl hsame
    · exact .inr ⟨get, haction, hnext⟩
  case failed =>
    intro get hmaking
    simp [step?, isMaking, hmaking]
  case vacated =>
    intro get hmaking
    exact ⟨_, by simp [step?, isMaking, hmaking], goesBack_cancel h hmaking⟩
  case passed =>
    intro get hgranted
    have hknown : (pool.isMaking get || pool.idle.isKnown get) = true := by
      simp [Queue.isKnown, Queue.isReady, hgranted]
    exact ⟨_, if_pos hknown, promotes_cancel h hgranted, isKnown_cancel h hknown⟩
  case withdrawn =>
    intro get hwaits
    have hknown : (pool.isMaking get || pool.idle.isKnown get) = true := by
      simp [Queue.isKnown, hwaits]
    exact (if_pos hknown).trans (congrArg some (cancel_of_mem_waiting h hwaits))
  case returned =>
    intro guard object keep hobject
    exact ⟨_, by simp [step?, hobject], goesBack_giveBack h hobject keep⟩
  case signalled =>
    intro hpending
    refine ⟨_, if_neg hpending, promotes_addPermit pool _ _, ?_⟩
    have hsame : pool.signal.idle.unsignalled = pool.idle.unsignalled - 1 :=
      Queue.unsignalled_addPermit _
    omega
  case waiting => exact fun hwaiting ↦ (h.slots_of_waiting hwaiting).trans hcapacity
  case quiet =>
    intro hnobody hsettled get hwaits
    have hpopper : get ∈ pool.idle.poppers := List.mem_append_left _ hwaits
    have hslots := h.slots_of_waiting (List.ne_nil_of_mem hwaits)
    rw [h.granted_eq_nil hnobody, hsettled, List.length_nil, hcapacity] at hslots
    exact ⟨h.not_mem_making hpopper, h.not_mem_held (List.mem_append_left _ hpopper), hslots⟩

/-- Gets of a pool with one slot. The first guard is dropped; the get that was granted its slot is
given up, and so is the next one, while it makes a new object; the slot goes to the one after it, and
one more waits. -/
def passingSteps : List (Step Nat) :=
  [.ask 0, .fail 0, .finish 0 7, .ask 1, .ask 2, .giveBack 0 false, .signal, .cancel 1, .take 2,
    .ask 3, .ask 4, .cancel 2, .signal, .take 3]

theorem slotsAccounted_of_passingSteps :
    ∃ (history : List (Pool Nat × Step Nat)) (pool : Pool Nat),
      Run step? (Pool.ofCapacity 0) history pool ∧ pool.making = [3] ∧ pool.idle.waiting = [4] ∧
        SlotsAccounted 0 pool := by
  have hfollow : (Run.follow? step? (Pool.ofCapacity 0) passingSteps).map
      (fun taken ↦ (taken.2.making, taken.2.idle.waiting)) = some ([3], [4]) := by
    decide
  obtain ⟨⟨history, pool⟩, htaken, hlists⟩ := Option.map_eq_some_iff.mp hfollow
  have run := Run.of_follow? htaken
  exact ⟨history, pool, run, congrArg Prod.fst hlists, congrArg Prod.snd hlists,
    slotsAccounted_of_run run⟩

end GelfCourier.Pool
