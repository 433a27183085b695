/-!
Lists whose entries are known by number. Replacing the entries of one number changes what is found
under this number and nothing else; where numbers are not used twice, it changes one entry.
-/

set_option autoImplicit false

namespace GelfCourier.Numbered

variable {τ : Type} (numberOf : τ → Nat)

theorem find?_map_update (update : τ → τ) (number : Nat)
    (hupdate : ∀ entry, numberOf entry = number → numberOf (update entry) = number)
    (entries : List τ) (other : Nat) :
    (entries.map fun entry ↦ if numberOf entry = number then update entry else entry).find?
        (fun entry ↦ numberOf entry = other) =
      if other = number then (entries.find? fun entry ↦ numberOf entry = number).map update
      else entries.find? fun entry ↦ numberOf entry = other := by
  induction entries with
  | nil => simp
  | cons entry rest ih =>
    rw [List.map_cons, List.find?_cons, List.find?_cons, List.find?_cons, ih]
    by_cases hentry : numberOf entry = number
    · have hupdated := hupdate entry hentry
      by_cases hother : other = number
      · simp [hentry, hupdated, hother]
      · have hne : ¬ number = other := fun hsame ↦ hother hsame.symm
        simp [hentry, hupdated, hother, hne]
    · by_cases hother : other = number
      · simp [hentry, hother]
      · simp [hentry, hother]

theorem find?_append_singleton (entries : List τ) (entry : τ) (other : Nat)
    (hfresh : (entries.find? fun old ↦ numberOf old = numberOf entry) = none) :
    (entries ++ [entry]).find? (fun old ↦ numberOf old = other) =
      if other = numberOf entry then some entry
      else entries.find? fun old ↦ numberOf old = other := by
  rw [List.find?_append]
  by_cases hother : other = numberOf entry
  · rw [hother, hfresh]
    simp
  · have hne : ¬ numberOf entry = other := fun hsame ↦ hother hsame.symm
    simp [hother, hne]

theorem map_update_eq_self (update : τ → τ) (number : Nat) {entries : List τ}
    (hother : ∀ entry ∈ entries, numberOf entry ≠ number) :
    (entries.map fun entry ↦ if numberOf entry = number then update entry else entry) =
      entries := by
  refine (List.map_congr_left fun entry hentry ↦ ?_).trans (List.map_id _)
  rw [if_neg (hother entry hentry)]
  rfl

theorem ne_of_nodup_middle {before after : List τ} {entry : τ}
    (hnodup : ((before ++ entry :: after).map numberOf).Nodup) :
    ∀ old ∈ before ++ after, numberOf old ≠ numberOf entry := by
  rw [List.map_append, List.map_cons, List.nodup_append] at hnodup
  obtain ⟨-, hright, hdisjoint⟩ := hnodup
  intro old hold
  rcases List.mem_append.mp hold with hbefore | hafter
  · exact hdisjoint _ (List.mem_map_of_mem hbefore) _ List.mem_cons_self
  · exact fun hsame ↦ (List.nodup_cons.mp hright).1 (hsame ▸ List.mem_map_of_mem hafter)

/-- Assumes: entries whose numbers are all different. -/
theorem map_update_middle (update : τ → τ) {before after : List τ} {entry : τ}
    (hnodup : ((before ++ entry :: after).map numberOf).Nodup) :
    ((before ++ entry :: after).map fun old ↦
        if numberOf old = numberOf entry then update old else old) =
      before ++ update entry :: after := by
  have hother := ne_of_nodup_middle numberOf hnodup
  have hbefore : ∀ old ∈ before, numberOf old ≠ numberOf entry := fun old hold ↦
    hother old (List.mem_append_left _ hold)
  have hafter : ∀ old ∈ after, numberOf old ≠ numberOf entry := fun old hold ↦
    hother old (List.mem_append_right _ hold)
  rw [List.map_append, List.map_cons, if_pos rfl, map_update_eq_self numberOf update _ hbefore,
    map_update_eq_self numberOf update _ hafter]

/-- Assumes: entries whose numbers are all different. -/
theorem find?_of_mem {entries : List τ} {entry : τ} (hnodup : (entries.map numberOf).Nodup)
    (hentry : entry ∈ entries) :
    entries.find? (fun old ↦ numberOf old = numberOf entry) = some entry := by
  induction entries with
  | nil => cases hentry
  | cons first rest ih =>
    rw [List.map_cons, List.nodup_cons] at hnodup
    rw [List.find?_cons]
    rcases List.mem_cons.mp hentry with rfl | hrest
    · simp
    · have hfirst : numberOf first ≠ numberOf entry := fun hsame ↦
        hnodup.1 (hsame ▸ List.mem_map_of_mem hrest)
      simp only [hfirst, decide_false]
      exact ih hnodup.2 hrest

/-- Assumes: entries whose numbers are all different. -/
theorem perm_cons_filter {entries : List τ} {entry : τ} (hnodup : (entries.map numberOf).Nodup)
    (hentry : entry ∈ entries) :
    entries.Perm (entry :: entries.filter fun old ↦ numberOf old ≠ numberOf entry) := by
  obtain ⟨before, after, rfl⟩ := List.append_of_mem hentry
  have hother := ne_of_nodup_middle numberOf hnodup
  have hkept : (before ++ entry :: after).filter (fun old ↦ numberOf old ≠ numberOf entry) =
      before ++ after := by
    rw [List.filter_append, List.filter_cons_of_neg (by simp), ← List.filter_append,
      List.filter_eq_self]
    exact fun old hold ↦ decide_eq_true (hother old hold)
  rw [hkept]
  exact List.perm_middle

/-- Assumes: yields under the number of their entry. -/
theorem sublist_filterMap {β : Type} {yield? : τ → Option (Nat × β)}
    (hyield : ∀ entry found, yield? entry = some found → found.1 = numberOf entry)
    (entries : List τ) :
    ((entries.filterMap yield?).map Prod.fst).Sublist (entries.map numberOf) := by
  induction entries with
  | nil => exact .slnil
  | cons entry rest ih =>
    cases hfound : yield? entry with
    | none =>
      rw [List.filterMap_cons_none hfound]
      exact ih.cons _
    | some found =>
      rw [List.filterMap_cons_some hfound, List.map_cons, List.map_cons, hyield entry found hfound]
      exact ih.cons_cons _

/-- Assumes: entries whose numbers are all different, and yields under the number of their entry. -/
theorem filter_filterMap {β : Type} {yield? : τ → Option (Nat × β)}
    (hyield : ∀ entry found, yield? entry = some found → found.1 = numberOf entry)
    {entries : List τ} {entry : τ} (hnodup : (entries.map numberOf).Nodup)
    (hentry : entry ∈ entries) :
    (entries.filterMap yield?).filter (fun found ↦ found.1 = numberOf entry) =
      (yield? entry).toList := by
  have hkeep : (yield? entry).toList.filter (fun found ↦ found.1 = numberOf entry) =
      (yield? entry).toList := by
    cases hfound : yield? entry with
    | none => rfl
    | some found =>
      have hnumber := hyield entry found hfound
      simp [hnumber]
  have hnone : ∀ others : List τ, (∀ other ∈ others, numberOf other ≠ numberOf entry) →
      (others.filterMap yield?).filter (fun found ↦ found.1 = numberOf entry) = [] := by
    intro others hothers
    refine List.filter_eq_nil_iff.mpr fun found hfound ↦ ?_
    obtain ⟨other, hother, hsome⟩ := List.mem_filterMap.mp hfound
    have hnumber := hyield other found hsome
    simpa [hnumber] using hothers other hother
  obtain ⟨before, after, rfl⟩ := List.append_of_mem hentry
  have hother := ne_of_nodup_middle numberOf hnodup
  have hbefore : ∀ old ∈ before, numberOf old ≠ numberOf entry := fun old hold ↦
    hother old (List.mem_append_left _ hold)
  have hafter : ∀ old ∈ after, numberOf old ≠ numberOf entry := fun old hold ↦
    hother old (List.mem_append_right _ hold)
  have hcons : (entry :: after).filterMap yield? =
      (yield? entry).toList ++ after.filterMap yield? := by
    cases hfound : yield? entry <;> simp [hfound]
  rw [List.filterMap_append, List.filter_append, hnone before hbefore, hcons, List.filter_append,
    hkeep, hnone after hafter, List.nil_append, List.append_nil]

theorem count_erase_add {numbers : List Nat} {number : Nat} (hmem : number ∈ numbers)
    (other : Nat) : (numbers.erase number).count other + (if number = other then 1 else 0) =
      numbers.count other := by
  have hpositive := List.count_pos_iff.mpr hmem
  rw [List.count_erase]
  by_cases hsame : number = other
  · subst hsame
    simp only [beq_self_eq_true, if_true]
    omega
  · simp [hsame]

/-- Entries without those of one number, and those of this number, are all of them. -/
theorem length_filter_ne_add (entries : List τ) (number : Nat) :
    (entries.filter fun entry ↦ numberOf entry ≠ number).length +
      (entries.map numberOf).count number = entries.length := by
  induction entries with
  | nil => rfl
  | cons entry rest ih =>
    by_cases hsame : numberOf entry = number
    · simp [hsame] at ih ⊢
      omega
    · simp [hsame] at ih ⊢
      omega

theorem count_filter_ne_add (entries : List τ) (number other : Nat) :
    ((entries.filter fun entry ↦ numberOf entry ≠ number).map numberOf).count other +
        (if number = other then (entries.map numberOf).count number else 0) =
      (entries.map numberOf).count other := by
  induction entries with
  | nil => simp
  | cons entry rest ih =>
    by_cases hsame : number = other
    · subst hsame
      by_cases hentry : numberOf entry = number
      · simp [hentry] at ih ⊢
        omega
      · simp [hentry] at ih ⊢
        omega
    · by_cases hentry : numberOf entry = number
      · simp [hentry, hsame] at ih ⊢
        exact ih
      · simp [hentry, hsame, List.count_cons] at ih ⊢
        exact ih

end GelfCourier.Numbered
