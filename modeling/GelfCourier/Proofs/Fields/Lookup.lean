import GelfCourier.Fields

/-!
Named fields are determined by what they hold under each name. From this follow the equations for
restricting fields to some names and for building them from a list of entries.
-/

set_option autoImplicit false

namespace GelfCourier.Fields

variable {α β : Type}

/-! ### Looking up in a list of entries -/

theorem lookup_eq_none_of_forall_ne {name : String} {entries : List (String × α)}
    (hne : ∀ entry ∈ entries, name ≠ entry.1) : lookup name entries = none := by
  induction entries with
  | nil => rfl
  | cons entry rest ih =>
    have hhead : name ≠ entry.1 := hne entry List.mem_cons_self
    rw [lookup, if_neg hhead]
    exact ih fun other hother ↦ hne other (List.mem_cons_of_mem _ hother)

theorem mem_of_lookup_eq_some {name : String} {value : α} {entries : List (String × α)}
    (h : lookup name entries = some value) : (name, value) ∈ entries := by
  induction entries with
  | nil => cases h
  | cons entry rest ih =>
    rw [lookup] at h
    split at h
    · next hname =>
      cases h
      exact hname ▸ List.mem_cons_self
    · exact List.mem_cons_of_mem _ (ih h)

theorem lookup_append (name : String) (first second : List (String × α)) :
    lookup name (first ++ second) = (lookup name first).or (lookup name second) := by
  induction first with
  | nil => rfl
  | cons entry rest ih =>
    rw [List.cons_append, lookup, lookup, ih]
    split <;> rfl

theorem lookup_map (convert : α → β) (name : String) (entries : List (String × α)) :
    lookup name (entries.map fun entry ↦ (entry.1, convert entry.2)) =
      (lookup name entries).map convert := by
  induction entries with
  | nil => rfl
  | cons entry rest ih =>
    rw [List.map_cons, lookup, lookup, ih]
    split <;> rfl

theorem lookup_filter (keep : String → Bool) (name : String) (entries : List (String × α)) :
    lookup name (entries.filter fun entry ↦ keep entry.1) =
      if keep name then lookup name entries else none := by
  induction entries with
  | nil => simp [lookup]
  | cons entry rest ih =>
    by_cases hkeep : keep entry.1
    · rw [List.filter_cons_of_pos (p := fun entry : String × α ↦ keep entry.1) hkeep, lookup,
        lookup, ih]
      by_cases hname : name = entry.1
      · simp [hname, hkeep]
      · simp [hname]
    · rw [List.filter_cons_of_neg (p := fun entry : String × α ↦ keep entry.1) hkeep, lookup, ih]
      by_cases hname : name = entry.1
      · simp [hname, hkeep]
      · simp [hname]

theorem lookup_eq_none_iff {name : String} {entries : List (String × α)} :
    lookup name entries = none ↔ ∀ entry ∈ entries, name ≠ entry.1 := by
  refine ⟨fun hnone ↦ ?_, lookup_eq_none_of_forall_ne⟩
  induction entries with
  | nil => exact fun _ hentry ↦ nomatch hentry
  | cons head rest ih =>
    rw [lookup] at hnone
    split at hnone
    · cases hnone
    · next hhead => exact List.forall_mem_cons.mpr ⟨hhead, ih hnone⟩

theorem lookup_eq_find? (name : String) (entries : List (String × α)) :
    lookup name entries = (entries.find? fun entry ↦ name = entry.1).map Prod.snd := by
  induction entries with
  | nil => rfl
  | cons entry rest ih =>
    rw [lookup, List.find?_cons, ih]
    by_cases hname : name = entry.1 <;> simp [hname]

/-- Only the entries of a name matter for what is found under it. -/
theorem lookup_filter_congr {keep other : String × α → Bool} {name : String}
    (hsame : ∀ entry, entry.1 = name → keep entry = other entry) (entries : List (String × α)) :
    lookup name (entries.filter keep) = lookup name (entries.filter other) := by
  induction entries with
  | nil => rfl
  | cons entry rest ih =>
    rw [List.filter_cons, List.filter_cons]
    by_cases hname : entry.1 = name
    · rw [hsame entry hname]
      split
      · rw [lookup, lookup, ih]
      · exact ih
    · have hskip (tail : List (String × α)) : lookup name (entry :: tail) = lookup name tail := by
        rw [lookup, if_neg (Ne.symm hname)]
      have hdrop (kept : Bool) (tail : List (String × α)) :
          lookup name (if kept = true then entry :: tail else tail) = lookup name tail := by
        cases kept
        · rfl
        · exact hskip tail
      rw [hdrop, hdrop, ih]

/-! ### Fields are what they hold -/

/-- Below the least name of an ascending list nothing is found. -/
theorem lookup_eq_none_of_lt {name : String} {entry : String × α} {rest : List (String × α)}
    (hascending : Ascending (entry :: rest)) (hlt : name < entry.1) :
    lookup name (entry :: rest) = none := by
  refine lookup_eq_none_of_forall_ne fun other hother hsame ↦ ?_
  rcases List.mem_cons.mp hother with rfl | hlater
  · exact String.lt_irrefl _ (hsame ▸ hlt)
  · have hbelow := (List.pairwise_cons.mp hascending).1 other hlater
    exact String.lt_irrefl _ (hsame ▸ String.lt_trans hlt hbelow)

theorem lookup_tail_eq_none {entry : String × α} {rest : List (String × α)}
    (hascending : Ascending (entry :: rest)) : lookup entry.1 rest = none := by
  refine lookup_eq_none_of_forall_ne fun other hother hsame ↦ ?_
  have hbelow := (List.pairwise_cons.mp hascending).1 other hother
  exact String.lt_irrefl _ (hsame ▸ hbelow)

theorem eq_of_lookup_eq {first second : List (String × α)} (hfirst : Ascending first)
    (hsecond : Ascending second) (hsame : ∀ name, lookup name first = lookup name second) :
    first = second := by
  induction first generalizing second with
  | nil =>
    cases second with
    | nil => rfl
    | cons entry rest =>
      have hnone := hsame entry.1
      simp [lookup] at hnone
  | cons entry rest ih =>
    cases second with
    | nil =>
      have hnone := hsame entry.1
      simp [lookup] at hnone
    | cons other others =>
      have hname : entry.1 = other.1 := by
        by_cases hlt : entry.1 < other.1
        · have hnone := hsame entry.1
          rw [lookup_eq_none_of_lt hsecond hlt, lookup, if_pos rfl] at hnone
          cases hnone
        · by_cases hgt : other.1 < entry.1
          · have hnone := hsame other.1
            rw [lookup_eq_none_of_lt hfirst hgt, lookup, if_pos rfl] at hnone
            cases hnone
          · exact String.le_antisymm (String.not_lt.mp hgt) (String.not_lt.mp hlt)
      have hvalue : entry.2 = other.2 := by
        have hhead := hsame entry.1
        rw [lookup, if_pos rfl, lookup, if_pos hname] at hhead
        exact Option.some.inj hhead
      have hrest : rest = others := by
        refine ih hfirst.tail hsecond.tail fun name ↦ ?_
        by_cases hhead : name = entry.1
        · subst hhead
          rw [lookup_tail_eq_none hfirst, hname, lookup_tail_eq_none hsecond]
        · have hlater := hsame name
          rw [lookup, if_neg hhead, lookup, if_neg (hname ▸ hhead)] at hlater
          exact hlater
      rw [hrest, Prod.ext hname hvalue]

theorem lookup_of_mem {entries : List (String × α)} (hascending : Ascending entries)
    {entry : String × α} (hentry : entry ∈ entries) : lookup entry.1 entries = some entry.2 := by
  induction entries with
  | nil => cases hentry
  | cons head rest ih =>
    rw [lookup]
    rcases List.mem_cons.mp hentry with rfl | hlater
    · rw [if_pos rfl]
    · have hbelow := (List.pairwise_cons.mp hascending).1 entry hlater
      rw [if_neg fun hsame ↦ String.lt_irrefl _ (hsame ▸ hbelow), ih hascending.tail hlater]

theorem get?_of_mem {fields : Fields α} {entry : String × α} (hentry : entry ∈ fields.entries) :
    fields.get? entry.1 = some entry.2 :=
  lookup_of_mem fields.ascending hentry

theorem ext_get? {first second : Fields α} (hsame : ∀ name, first.get? name = second.get? name) :
    first = second :=
  ext_entries (eq_of_lookup_eq first.ascending second.ascending hsame)

@[simp] theorem get?_filter (keep : String → Bool) (fields : Fields α) (name : String) :
    (fields.filter keep).get? name = if keep name then fields.get? name else none :=
  lookup_filter keep name fields.entries

@[simp] theorem get?_map (convert : α → β) (fields : Fields α) (name : String) :
    (fields.map convert).get? name = (fields.get? name).map convert :=
  lookup_map convert name fields.entries

theorem get?_insert (fields : Fields α) (name other : String) (value : α) :
    (fields.insert name value).get? other =
      if other = name then some value else fields.get? other := by
  split
  · next hsame => rw [hsame, get?_insert_self]
  · next hne => exact get?_insert_of_ne fields hne value

/-! ### Fields built from entries -/

theorem insertEntry_of_forall_lt {name : String} {value : α} {entries : List (String × α)}
    (hlast : ∀ entry ∈ entries, entry.1 < name) :
    insertEntry name value entries = entries ++ [(name, value)] := by
  induction entries with
  | nil => rfl
  | cons entry rest ih =>
    have hlt := hlast entry List.mem_cons_self
    have hne : name ≠ entry.1 := fun hsame ↦ String.lt_irrefl _ (hsame ▸ hlt)
    rw [insertEntry, if_neg (String.lt_asymm hlt), if_neg hne,
      ih fun other hother ↦ hlast other (List.mem_cons_of_mem _ hother), List.cons_append]

/-- A name above all others goes to the end. -/
theorem entries_insert {fields : Fields α} {name : String} {value : α}
    (hlast : ∀ entry ∈ fields.entries, entry.1 < name) :
    (fields.insert name value).entries = fields.entries ++ [(name, value)] :=
  insertEntry_of_forall_lt hlast

/-- Inserting entries of distinct names one after another. -/
def insertAll (fields : Fields α) (entries : List (String × α)) : Fields α :=
  entries.foldl (fun fields entry ↦ fields.insert entry.1 entry.2) fields

theorem get?_insertAll (fields : Fields α) {entries : List (String × α)}
    (hdistinct : (entries.map Prod.fst).Nodup) (name : String) :
    (fields.insertAll entries).get? name = (lookup name entries).or (fields.get? name) := by
  induction entries generalizing fields with
  | nil => rfl
  | cons entry rest ih =>
    obtain ⟨hfresh, hrest⟩ := List.nodup_cons.mp hdistinct
    have hinsert : fields.insertAll (entry :: rest) =
        (fields.insert entry.1 entry.2).insertAll rest := rfl
    rw [hinsert, ih _ hrest, get?_insert, lookup]
    by_cases hname : name = entry.1
    · have hnone : lookup name rest = none :=
        lookup_eq_none_of_forall_ne fun other hother hsame ↦
          hfresh (List.mem_map.mpr ⟨other, hother, by rw [← hsame, hname]⟩)
      rw [if_pos hname, if_pos hname, hnone]
      rfl
    · rw [if_neg hname, if_neg hname]

theorem get?_ofList {entries : List (String × α)} (hdistinct : (entries.map Prod.fst).Nodup)
    (name : String) : (ofList entries).get? name = lookup name entries := by
  have h := get?_insertAll empty hdistinct name
  rw [get?_empty, Option.or_none] at h
  exact h

/-- Of several entries with one name the last counts. -/
theorem get?_insertAll_reverse (fields : Fields α) (entries : List (String × α)) (name : String) :
    (fields.insertAll entries).get? name =
      (lookup name entries.reverse).or (fields.get? name) := by
  induction entries generalizing fields with
  | nil => rfl
  | cons entry rest ih =>
    have hinsert : fields.insertAll (entry :: rest) =
        (fields.insert entry.1 entry.2).insertAll rest := rfl
    rw [hinsert, ih, get?_insert, List.reverse_cons, lookup_append, Option.or_assoc, lookup, lookup]
    split <;> rfl

theorem get?_ofList_reverse (entries : List (String × α)) (name : String) :
    (ofList entries).get? name = lookup name entries.reverse := by
  have h := get?_insertAll_reverse empty entries name
  rw [get?_empty, Option.or_none] at h
  exact h

theorem nodup_of_ascending {entries : List (String × α)} (hascending : Ascending entries) :
    (entries.map Prod.fst).Nodup := by
  rw [List.Nodup, List.pairwise_map]
  refine List.Pairwise.imp ?_ hascending
  intro first second hlt hsame
  exact String.lt_irrefl _ (hsame ▸ hlt)

/-- Entries in ascending order are already what they build. -/
theorem ofList_entries {entries : List (String × α)} (hascending : Ascending entries) :
    (ofList entries).entries = entries :=
  eq_of_lookup_eq (ofList entries).ascending hascending
    (get?_ofList (nodup_of_ascending hascending))

end GelfCourier.Fields
