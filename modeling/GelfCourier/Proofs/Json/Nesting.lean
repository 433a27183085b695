import GelfCourier.Json.Reader
import Mathlib.Tactic.SplitIfs

/-!
How deep a value nests that has been read. Every bracket that is read uses up one level of what the
reader may go down, so a value nests no deeper than its reader was allowed to go.
-/

set_option autoImplicit false

namespace GelfCourier.Json

namespace Tree

theorem itemsNesting_le_iff {items : List Tree} {depth : Nat} :
    itemsNesting items ≤ depth ↔ ∀ item ∈ items, item.nesting ≤ depth := by
  induction items with
  | nil => simp [itemsNesting]
  | cons item rest ih => rw [itemsNesting, Nat.max_le, ih, List.forall_mem_cons]

theorem membersNesting_le_iff {members : List (String × Tree)} {depth : Nat} :
    membersNesting members ≤ depth ↔ ∀ member ∈ members, member.2.nesting ≤ depth := by
  induction members with
  | nil => simp [membersNesting]
  | cons member rest ih => rw [membersNesting, Nat.max_le, ih, List.forall_mem_cons]

end Tree

/-- Everything that the element reader reads nests at most this deep. -/
def NestsWithin (depth : Nat) (element : Bytes → Reading Tree) : Prop :=
  ∀ s tree rest, element s = .ok (tree, rest) → tree.nesting ≤ depth

section Elements

variable {element : Bytes → Reading Tree} {depth : Nat} (helement : NestsWithin depth element)

include helement

theorem items_nesting {turns : Nat} {read list : List Tree} {s rest : Bytes}
    (hread : ∀ tree ∈ read, tree.nesting ≤ depth)
    (h : items element turns read s = .ok (list, rest)) :
    ∀ tree ∈ list, tree.nesting ≤ depth := by
  induction turns generalizing read s with
  | zero => cases h
  | succ turns ih =>
    rw [items] at h
    split at h
    · cases h
    · cases h
      exact fun tree htree ↦ hread tree (List.mem_reverse.mp htree)
    · split at h
      · cases h
      · next hfound =>
        refine ih (fun tree htree ↦ ?_) h
        rcases List.mem_cons.mp htree with rfl | hold
        · exact helement _ _ _ hfound
        · exact hread tree hold

theorem members_nesting {turns : Nat} {first : Bool} {read fields : Fields Tree} {s rest : Bytes}
    (hread : ∀ entry ∈ read.entries, entry.2.nesting ≤ depth)
    (h : members element turns first read s = .ok (fields, rest)) :
    ∀ entry ∈ fields.entries, entry.2.nesting ≤ depth := by
  induction turns generalizing first read s with
  | zero => cases h
  | succ turns ih =>
    rw [members] at h
    split at h
    · cases h
    · cases h
      exact hread
    · split at h
      · cases h
      · split at h
        · cases h
        · next hfound =>
          refine ih (fun entry hentry ↦ ?_) h
          rcases Fields.mem_insertEntry hentry with rfl | hold
          · exact helement _ _ _ hfound
          · exact hread entry hold

end Elements

/-- Assumes: a reading whose result is made into a value without brackets. -/
theorem nesting_of_map {α : Type} {reading : Except Fault α} {make : α → Tree × Bytes}
    (hflat : ∀ a, (make a).1.nesting = 0) {tree : Tree} {rest : Bytes}
    (h : reading.map make = .ok (tree, rest)) : tree.nesting = 0 := by
  obtain ⟨a, -, hsame⟩ := map_ok h
  have hmade := hflat a
  rwa [hsame] at hmade

/-- What begins here has no brackets, or what is between them has been read by the element reader. -/
theorem valueAt_cases {turns : Nat} {reader : Option (Bytes → Reading Tree)} {s rest : Bytes}
    {tree : Tree} (h : valueAt turns reader s = .ok (tree, rest)) :
    tree.nesting = 0 ∨ ∃ element, reader = some element ∧
      ((∃ inner list, items element turns [] inner = .ok (list, rest) ∧ tree = .array list) ∨
        ∃ inner fields, members element turns true .empty inner = .ok (fields, rest) ∧
          tree = .object fields.entries) := by
  cases s with
  | nil => cases h
  | cons c inner =>
    simp only [valueAt] at h
    split_ifs at h with hnull htrue hfalse hnumber htext harray hobject
    · exact .inl (nesting_of_map (fun _ ↦ rfl) h)
    · exact .inl (nesting_of_map (fun _ ↦ rfl) h)
    · exact .inl (nesting_of_map (fun _ ↦ rfl) h)
    · exact .inl (nesting_of_map (fun _ ↦ rfl) h)
    · exact .inl (nesting_of_map (fun _ ↦ rfl) h)
    · cases reader with
      | none => cases h
      | some element =>
        obtain ⟨⟨list, after⟩, hlist, hsame⟩ := map_ok h
        cases hsame
        exact .inr ⟨element, rfl, .inl ⟨inner, list, hlist, rfl⟩⟩
    · cases reader with
      | none => cases h
      | some element =>
        obtain ⟨⟨fields, after⟩, hfields, hsame⟩ := map_ok h
        cases hsame
        exact .inr ⟨element, rfl, .inr ⟨inner, fields, hfields, rfl⟩⟩

theorem value_nesting (turns depth : Nat) : NestsWithin depth (value turns depth) := by
  induction depth with
  | zero =>
    intro s tree rest h
    rcases valueAt_cases h with hflat | ⟨element, hreader, -⟩
    · exact Nat.le_of_eq hflat
    · cases hreader
  | succ depth ih =>
    intro s tree rest h
    rcases valueAt_cases h with hflat | ⟨element, hreader, hbrackets⟩
    · omega
    · cases hreader
      rcases hbrackets with ⟨inner, list, hlist, rfl⟩ | ⟨inner, fields, hfields, rfl⟩
      · have hnone : ∀ tree ∈ ([] : List Tree), tree.nesting ≤ depth := nofun
        have hitems := items_nesting ih hnone hlist
        exact Nat.succ_le_succ (Tree.itemsNesting_le_iff.mpr hitems)
      · have hnone : ∀ entry ∈ (Fields.empty : Fields Tree).entries, entry.2.nesting ≤ depth :=
          nofun
        have hmembers := members_nesting ih hnone hfields
        exact Nat.succ_le_succ (Tree.membersNesting_le_iff.mpr hmembers)

theorem Value.nesting_of_readStart {s rest : Bytes} {value : Value}
    (h : Value.readStart s = .ok (value, rest)) : value.tree.nesting ≤ nestingLimit := by
  unfold Value.readStart at h
  split at h
  · cases h
  · next tree after hvalue =>
    cases h
    exact value_nesting s.length nestingLimit _ _ _ hvalue

end GelfCourier.Json
