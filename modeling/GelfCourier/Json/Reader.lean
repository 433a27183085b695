import GelfCourier.Json.Token

/-!
Reading JSON strictly from octets. Arrays and objects nest at most 127 deep; of members with one
name the last counts. What is read is always canonical: its objects are in ascending order.
-/

set_option autoImplicit false

namespace GelfCourier.Json

def nestingLimit : Nat := 127

def isSpace (b : UInt8) : Bool := b == 0x20 || b == 0x09 || b == 0x0a || b == 0x0d

def skipSpace (s : Bytes) : Bytes := s.dropWhile isSpace

/-- The given octets and nothing else. -/
def word : (expected : Bytes) → Bytes → Except Fault Bytes
  | [], s => .ok s
  | _ :: _, [] => .error .truncated
  | e :: expected, c :: rest => if c = e then word expected rest else .error .malformed

/-- What comes after the opening bracket or after an item: the closing one, or another item. -/
inductive Turn where
  | finished (rest : Bytes)
  | item (rest : Bytes)

def turn (closing : UInt8) (first : Bool) (s : Bytes) : Except Fault Turn :=
  match skipSpace s with
  | [] => .error .truncated
  | c :: rest =>
    if c = closing then .ok (.finished rest)
    else if first then .ok (.item (c :: rest))
    else if c = 0x2c then
      match skipSpace rest with
      | [] => .error .truncated
      | d :: after => if d = closing then .error .malformed else .ok (.item (d :: after))
    else .error .malformed

/-- The items of an array after its opening bracket; `read` holds those read so far, the last one
first. The number of turns left is at least the number of octets left. -/
def items (element : Bytes → Reading Tree) :
    (turns : Nat) → (read : List Tree) → Bytes → Reading (List Tree)
  | 0, _, _ => .error .malformed
  | turns + 1, read, s =>
    match turn 0x5d read.isEmpty s with
    | .error fault => .error fault
    | .ok (.finished rest) => .ok (read.reverse, rest)
    | .ok (.item s) =>
      match element s with
      | .error fault => .error fault
      | .ok (value, rest) => items element turns (value :: read) rest

/-- A member name in quotes and the colon after it. -/
def memberName (s : Bytes) : Reading String :=
  match s with
  | 0x22 :: rest =>
    match text [] rest with
    | .error fault => .error fault
    | .ok (name, after) =>
      match skipSpace after with
      | [] => .error .truncated
      | c :: rest => if c = 0x3a then .ok (name, rest) else .error .malformed
  | _ => .error .malformed

/-- The members of an object after its opening brace. -/
def members (element : Bytes → Reading Tree) :
    (turns : Nat) → (first : Bool) → (read : Fields Tree) → Bytes → Reading (Fields Tree)
  | 0, _, _, _ => .error .malformed
  | turns + 1, first, read, s =>
    match turn 0x7d first s with
    | .error fault => .error fault
    | .ok (.finished rest) => .ok (read, rest)
    | .ok (.item s) =>
      match memberName s with
      | .error fault => .error fault
      | .ok (name, s) =>
        match element s with
        | .error fault => .error fault
        | .ok (value, rest) => members element turns false (read.insert name value) rest

/-- A value that begins here. Where `element` is missing the nesting limit is reached, and an
opening bracket is refused. -/
def valueAt (turns : Nat) (element : Option (Bytes → Reading Tree)) (s : Bytes) : Reading Tree :=
  match s with
  | [] => .error .truncated
  | c :: rest =>
    if c = 0x6e then (word [0x75, 0x6c, 0x6c] rest).map fun rest => (.null, rest)
    else if c = 0x74 then (word [0x72, 0x75, 0x65] rest).map fun rest => (.bool true, rest)
    else if c = 0x66 then (word [0x61, 0x6c, 0x73, 0x65] rest).map fun rest => (.bool false, rest)
    else if c = 0x2d ∨ isDigit c then (number (c :: rest)).map fun (n, rest) => (.number n, rest)
    else if c = 0x22 then (text [] rest).map fun (t, rest) => (.string t, rest)
    else if c = 0x5b then
      match element with
      | none => .error .malformed
      | some element => (items element turns [] rest).map fun (list, rest) => (.array list, rest)
    else if c = 0x7b then
      match element with
      | none => .error .malformed
      | some element =>
        (members element turns true .empty rest).map fun (fields, rest) =>
          (.object fields.entries, rest)
    else .error .malformed

/-- A value with blanks before it, of at most the given nesting. -/
def value (turns : Nat) : (depth : Nat) → Bytes → Reading Tree
  | 0, s => valueAt turns none (skipSpace s)
  | depth + 1, s => valueAt turns (some (value turns depth)) (skipSpace s)

/-- Nothing but blanks. -/
def endOfText (s : Bytes) : Except Fault Unit :=
  if (skipSpace s).isEmpty then .ok () else .error .malformed

/-! What is read is canonical. -/

theorem items_canonical {element : Bytes → Reading Tree}
    (each : ∀ s tree rest, element s = .ok (tree, rest) → tree.Canonical) (turns : Nat) :
    ∀ (read : List Tree) (s : Bytes) (list : List Tree) (rest : Bytes),
      (∀ tree ∈ read, tree.Canonical) → items element turns read s = .ok (list, rest) →
        ∀ tree ∈ list, tree.Canonical := by
  induction turns with
  | zero =>
    intro read s list rest _ h
    cases h
  | succ turns ih =>
    intro read s list rest before h
    rw [items] at h
    split at h
    · cases h
    · cases h
      exact fun tree member => before tree (List.mem_reverse.mp member)
    · split at h
      · cases h
      · next found =>
        refine ih _ _ _ _ (fun tree member => ?_) h
        rcases List.mem_cons.mp member with same | earlier
        · exact same ▸ each _ _ _ found
        · exact before tree earlier

theorem members_canonical {element : Bytes → Reading Tree}
    (each : ∀ s tree rest, element s = .ok (tree, rest) → tree.Canonical) (turns : Nat) :
    ∀ (first : Bool) (read : Fields Tree) (s : Bytes) (fields : Fields Tree) (rest : Bytes),
      (∀ entry ∈ read.entries, entry.2.Canonical) →
      members element turns first read s = .ok (fields, rest) →
        ∀ entry ∈ fields.entries, entry.2.Canonical := by
  induction turns with
  | zero =>
    intro first read s fields rest _ h
    cases h
  | succ turns ih =>
    intro first read s fields rest before h
    rw [members] at h
    split at h
    · cases h
    · cases h
      exact before
    · split at h
      · cases h
      · split at h
        · cases h
        · next found =>
          refine ih _ _ _ _ _ (fun entry member => ?_) h
          rcases Fields.mem_insertEntry member with same | earlier
          · exact same ▸ each _ _ _ found
          · exact before entry earlier

theorem map_ok {ε α β : Type} {f : α → β} {result : Except ε α} {b : β}
    (h : result.map f = .ok b) : ∃ a, result = .ok a ∧ f a = b := by
  cases result with
  | error _ => cases h
  | ok a => exact ⟨a, rfl, by cases h; rfl⟩

theorem valueAt_canonical (turns : Nat) {element : Option (Bytes → Reading Tree)}
    (each : ∀ read ∈ element, ∀ s tree rest, read s = .ok (tree, rest) → tree.Canonical)
    {s : Bytes} {tree : Tree} {rest : Bytes} (h : valueAt turns element s = .ok (tree, rest)) :
    tree.Canonical := by
  unfold valueAt at h
  split at h
  · cases h
  · split at h
    · obtain ⟨_, _, same⟩ := map_ok h
      cases same
      simp [Tree.Canonical]
    · split at h
      · obtain ⟨_, _, same⟩ := map_ok h
        cases same
        simp [Tree.Canonical]
      · split at h
        · obtain ⟨_, _, same⟩ := map_ok h
          cases same
          simp [Tree.Canonical]
        · split at h
          · obtain ⟨_, _, same⟩ := map_ok h
            cases same
            simp [Tree.Canonical]
          · split at h
            · obtain ⟨_, _, same⟩ := map_ok h
              cases same
              simp [Tree.Canonical]
            · split at h
              · split at h
                · cases h
                · next read =>
                  obtain ⟨⟨list, after⟩, found, same⟩ := map_ok h
                  cases same
                  rw [Tree.Canonical, Tree.itemsCanonical_iff]
                  exact items_canonical (each read rfl) turns [] _ list _
                    (fun _ member => absurd member List.not_mem_nil) found
              · split at h
                · split at h
                  · cases h
                  · next read =>
                    obtain ⟨⟨fields, after⟩, found, same⟩ := map_ok h
                    cases same
                    rw [Tree.Canonical, Tree.membersCanonical_iff]
                    exact ⟨fields.ascending, members_canonical (each read rfl) turns true .empty _
                      fields _ (fun _ member => absurd member List.not_mem_nil) found⟩
                · cases h

theorem value_canonical (turns depth : Nat) :
    ∀ {s : Bytes} {tree : Tree} {rest : Bytes}, value turns depth s = .ok (tree, rest) →
      tree.Canonical := by
  induction depth with
  | zero => exact fun h => valueAt_canonical turns (by simp) h
  | succ depth ih =>
    intro s tree rest h
    refine valueAt_canonical turns (fun read same s tree rest found => ?_) h
    cases same
    exact ih found

/-- The value at the beginning of a text, and what follows it. -/
def Value.readStart (s : Bytes) : Reading Value :=
  match h : value s.length nestingLimit s with
  | .error fault => .error fault
  | .ok (tree, rest) => .ok (⟨tree, value_canonical s.length nestingLimit h⟩, rest)

/-- A whole text as one value. -/
def Value.read (s : Bytes) : Except Fault Value := do
  let (value, rest) ← Value.readStart s
  endOfText rest
  return value

end GelfCourier.Json
