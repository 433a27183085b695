/-!
Named fields: a finite map from names to values, kept in ascending order of the names. Names compare
by code points, which is the order of their UTF-8 octets. Each name occurs once; inserting a name
again replaces its value.
-/

set_option autoImplicit false

namespace GelfCourier

namespace Fields

variable {α β : Type}

/-- Strictly ascending names. -/
def Ascending (entries : List (String × α)) : Prop :=
  entries.Pairwise fun a b => a.1 < b.1

/-- Puts a value under a name, in place of the value it had. -/
def insertEntry (name : String) (value : α) : List (String × α) → List (String × α)
  | [] => [(name, value)]
  | (key, old) :: rest =>
    if name < key then (name, value) :: (key, old) :: rest
    else if name = key then (name, value) :: rest
    else (key, old) :: insertEntry name value rest

def lookup (name : String) : List (String × α) → Option α
  | [] => none
  | (key, value) :: rest => if name = key then some value else lookup name rest

theorem mem_insertEntry {name : String} {value : α} {entry : String × α}
    {entries : List (String × α)} (h : entry ∈ insertEntry name value entries) :
    entry = (name, value) ∨ entry ∈ entries := by
  induction entries with
  | nil => exact Or.inl (by simpa [insertEntry] using h)
  | cons head rest ih =>
    obtain ⟨key, old⟩ := head
    rw [insertEntry] at h
    split at h
    · rcases List.mem_cons.mp h with h | h
      · exact Or.inl h
      · exact Or.inr h
    · split at h
      · rcases List.mem_cons.mp h with h | h
        · exact Or.inl h
        · exact Or.inr (List.mem_cons_of_mem _ h)
      · rcases List.mem_cons.mp h with h | h
        · exact Or.inr (h ▸ List.mem_cons_self)
        · exact (ih h).imp_right (List.mem_cons_of_mem _)

theorem ascending_insertEntry (name : String) (value : α) {entries : List (String × α)}
    (h : Ascending entries) : Ascending (insertEntry name value entries) := by
  induction entries with
  | nil => exact List.pairwise_singleton _ _
  | cons head rest ih =>
    obtain ⟨key, old⟩ := head
    obtain ⟨first, tail⟩ := List.pairwise_cons.mp h
    rw [insertEntry]
    split
    · next below =>
      refine List.pairwise_cons.mpr ⟨fun entry member => ?_, h⟩
      rcases List.mem_cons.mp member with same | later
      · subst same
        exact below
      · exact String.lt_trans below (first entry later)
    · next notBelow =>
      split
      · next same =>
        subst same
        exact List.pairwise_cons.mpr ⟨first, tail⟩
      · next differ =>
        refine List.pairwise_cons.mpr ⟨fun entry member => ?_, ih tail⟩
        rcases mem_insertEntry member with new | old
        · subst new
          have atMost : key ≤ name := String.not_lt.mp notBelow
          exact Decidable.byContradiction fun notLess =>
            differ (String.le_antisymm (String.not_lt.mp notLess) atMost)
        · exact first entry old

theorem lookup_insertEntry_self (name : String) (value : α) (entries : List (String × α)) :
    lookup name (insertEntry name value entries) = some value := by
  induction entries with
  | nil => simp [insertEntry, lookup]
  | cons head rest ih =>
    obtain ⟨key, old⟩ := head
    rw [insertEntry]
    split
    · simp [lookup]
    · split
      · simp [lookup]
      · next differ => rw [lookup, if_neg differ, ih]

theorem lookup_insertEntry_of_ne {name other : String} (differ : other ≠ name) (value : α)
    (entries : List (String × α)) :
    lookup other (insertEntry name value entries) = lookup other entries := by
  induction entries with
  | nil => simp [insertEntry, lookup, differ]
  | cons head rest ih =>
    obtain ⟨key, old⟩ := head
    rw [insertEntry]
    split
    · rw [lookup, if_neg differ]
    · split
      · next same =>
        subst same
        rw [lookup, lookup, if_neg differ, if_neg differ]
      · rw [lookup, lookup, ih]

end Fields

structure Fields (α : Type) where
  entries : List (String × α)
  ascending : Fields.Ascending entries

namespace Fields

variable {α β : Type}

theorem ext_entries {first second : Fields α} (h : first.entries = second.entries) :
    first = second := by
  cases first
  cases second
  cases h
  rfl

def empty : Fields α :=
  ⟨[], List.Pairwise.nil⟩

def insert (fields : Fields α) (name : String) (value : α) : Fields α :=
  ⟨insertEntry name value fields.entries, ascending_insertEntry name value fields.ascending⟩

def get? (fields : Fields α) (name : String) : Option α :=
  lookup name fields.entries

/-- The entries inserted one after another, so a later one replaces an earlier one of its name. -/
def ofList (entries : List (String × α)) : Fields α :=
  entries.foldl (fun fields entry => fields.insert entry.1 entry.2) empty

def filter (keep : String → Bool) (fields : Fields α) : Fields α :=
  ⟨fields.entries.filter fun entry => keep entry.1, fields.ascending.filter _⟩

def size (fields : Fields α) : Nat :=
  fields.entries.length

/-- The same names with each value converted. -/
def map (convert : α → β) (fields : Fields α) : Fields β where
  entries := fields.entries.map fun entry => (entry.1, convert entry.2)
  ascending := by
    rw [Ascending, List.pairwise_map]
    exact fields.ascending

@[simp] theorem get?_empty (name : String) : (empty : Fields α).get? name = none := rfl

@[simp] theorem get?_insert_self (fields : Fields α) (name : String) (value : α) :
    (fields.insert name value).get? name = some value :=
  lookup_insertEntry_self name value fields.entries

theorem get?_insert_of_ne (fields : Fields α) {name other : String} (differ : other ≠ name)
    (value : α) : (fields.insert name value).get? other = fields.get? other :=
  lookup_insertEntry_of_ne differ value fields.entries

end Fields

end GelfCourier
