import GelfCourier.Json.Writer
import GelfCourier.Proofs.Fields.Lookup
import GelfCourier.Proofs.Json.NumberToken
import GelfCourier.Proofs.Json.StringText

/-!
A written value is read back as itself where its numbers read back and its nesting is within the
depth that is left; where it nests deeper it is refused (`value_write`). The induction is on the
depth, because a value of one depth is read with the reader of the depth below as its element
reader. An object need not list its members in order for this: what is read holds them in order.
-/

set_option autoImplicit false

namespace GelfCourier.Json

/-! ### What a tree holds -/

namespace Tree

mutual

/-- The numbers in a tree, from left to right. -/
def numbers : Tree → List Number
  | .number n => [n]
  | .array items => itemsNumbers items
  | .object members => membersNumbers members
  | _ => []

def itemsNumbers : List Tree → List Number
  | [] => []
  | item :: rest => item.numbers ++ itemsNumbers rest

def membersNumbers : List (String × Tree) → List Number
  | [] => []
  | (_, value) :: rest => value.numbers ++ membersNumbers rest

end

theorem mem_itemsNumbers {n : Number} {items : List Tree} :
    n ∈ itemsNumbers items ↔ ∃ item ∈ items, n ∈ item.numbers := by
  induction items with
  | nil => simp [itemsNumbers]
  | cons item rest ih => simp [itemsNumbers, ih]

theorem mem_membersNumbers {n : Number} {members : List (String × Tree)} :
    n ∈ membersNumbers members ↔ ∃ member ∈ members, n ∈ member.2.numbers := by
  induction members with
  | nil => simp [membersNumbers]
  | cons member rest ih => simp [membersNumbers, ih]

theorem itemsNesting_cons_le {item : Tree} {rest : List Tree} {depth : Nat} :
    itemsNesting (item :: rest) ≤ depth ↔ item.nesting ≤ depth ∧ itemsNesting rest ≤ depth := by
  rw [itemsNesting, Nat.max_le]

theorem membersNesting_cons_le {member : String × Tree} {rest : List (String × Tree)}
    {depth : Nat} : membersNesting (member :: rest) ≤ depth ↔
      member.2.nesting ≤ depth ∧ membersNesting rest ≤ depth := by
  rw [membersNesting, Nat.max_le]

/-- The items after the first, each with a comma before it. -/
def furtherItems (items : List Tree) : Bytes :=
  items.flatMap fun item ↦ 0x2c :: item.write

/-- A member as it is written. -/
def writeMember (member : String × Tree) : Bytes :=
  stringBytes member.1 ++ 0x3a :: member.2.write

/-- The members after the first, each with a comma before it. -/
def furtherMembers (members : List (String × Tree)) : Bytes :=
  members.flatMap fun member ↦ 0x2c :: writeMember member

theorem writeItems_cons (item : Tree) (rest : List Tree) :
    writeItems (item :: rest) = item.write ++ furtherItems rest := by
  induction rest generalizing item with
  | nil => simp [writeItems, furtherItems]
  | cons next rest ih =>
    rw [writeItems, ih next]
    · rfl
    · simp

theorem writeMembers_cons (member : String × Tree) (rest : List (String × Tree)) :
    writeMembers (member :: rest) = writeMember member ++ furtherMembers rest := by
  induction rest generalizing member with
  | nil => simp [writeMembers, writeMember, furtherMembers]
  | cons next rest ih =>
    rw [writeMembers, ih next]
    · simp [writeMember, furtherMembers]
    · simp

/-- All numbers in the tree read back. -/
def ReadsBack (tree : Tree) : Prop :=
  ∀ n ∈ tree.numbers, n.ReadsBack

theorem ReadsBack.item {items : List Tree} (h : (Tree.array items).ReadsBack) {item : Tree}
    (hitem : item ∈ items) : item.ReadsBack := fun n hn ↦
  h n (mem_itemsNumbers.mpr ⟨item, hitem, hn⟩)

theorem ReadsBack.member {members : List (String × Tree)} (h : (Tree.object members).ReadsBack)
    {member : String × Tree} (hmember : member ∈ members) : member.2.ReadsBack := fun n hn ↦
  h n (mem_membersNumbers.mpr ⟨member, hmember, hn⟩)

theorem not_isSpace_of_isDigit {b : UInt8} (hb : isDigit b = true) : isSpace b = false := by
  have hne (c : UInt8) (hc : isDigit c = false) : (b == c) = false := by
    refine beq_eq_false_iff_ne.mpr fun hsame ↦ ?_
    rw [hsame, hc] at hb
    cases hb
  rw [isSpace, hne 0x20 rfl, hne 0x09 rfl, hne 0x0a rfl, hne 0x0d rfl]
  rfl

/-- A written value begins with an octet that is no blank and closes no array. -/
theorem write_head {tree : Tree} (hreads : tree.ReadsBack) :
    ∃ c rest, tree.write = c :: rest ∧ isSpace c = false ∧ c ≠ 0x5d := by
  cases tree with
  | null => exact ⟨_, _, rfl, rfl, by decide⟩
  | bool b => cases b <;> exact ⟨_, _, rfl, rfl, by decide⟩
  | number n =>
    obtain ⟨c, rest, hbytes, hc⟩ := number_head (hreads n (List.mem_singleton.mpr rfl))
    refine ⟨c, rest, hbytes, ?_⟩
    rcases hc with rfl | hdigit
    · exact ⟨rfl, by decide⟩
    · refine ⟨not_isSpace_of_isDigit hdigit, ?_⟩
      rintro rfl
      cases hdigit
  | string s => exact ⟨_, _, rfl, rfl, by decide⟩
  | array items => exact ⟨_, _, rfl, rfl, by decide⟩
  | object members => exact ⟨_, _, rfl, rfl, by decide⟩

end Tree

/-! ### Between the items -/

theorem skipSpace_cons {c : UInt8} (hc : isSpace c = false) (s : Bytes) :
    skipSpace (c :: s) = c :: s :=
  List.dropWhile_cons_of_neg (by rw [hc]; decide)

theorem turn_closing {closing : UInt8} (hclosing : isSpace closing = false) (first : Bool)
    (rest : Bytes) : turn closing first (closing :: rest) = .ok (.finished rest) := by
  simp [turn, skipSpace_cons hclosing]

theorem turn_first {closing c : UInt8} (hc : isSpace c = false) (hne : c ≠ closing) (s : Bytes) :
    turn closing true (c :: s) = .ok (.item (c :: s)) := by
  simp [turn, skipSpace_cons hc, hne]

theorem turn_further {closing c : UInt8} (hc : isSpace c = false) (hne : c ≠ closing)
    (hcomma : 0x2c ≠ closing) (s : Bytes) :
    turn closing false (0x2c :: c :: s) = .ok (.item (c :: s)) := by
  have hskip : skipSpace (0x2c :: c :: s) = 0x2c :: c :: s := skipSpace_cons rfl _
  simp [turn, hskip, skipSpace_cons hc, hne, hcomma]

theorem endsNumber_comma (rest : Bytes) : EndsNumber (0x2c :: rest) := by
  rintro c hc
  cases hc
  decide

theorem endsNumber_bracket (rest : Bytes) : EndsNumber (0x5d :: rest) := by
  rintro c hc
  cases hc
  decide

theorem endsNumber_brace (rest : Bytes) : EndsNumber (0x7d :: rest) := by
  rintro c hc
  cases hc
  decide

theorem endsNumber_furtherItems (items : List Tree) (rest : Bytes) :
    EndsNumber (Tree.furtherItems items ++ 0x5d :: rest) := by
  cases items with
  | nil => exact endsNumber_bracket rest
  | cons item items => exact endsNumber_comma _

theorem endsNumber_furtherMembers (members : List (String × Tree)) (rest : Bytes) :
    EndsNumber (Tree.furtherMembers members ++ 0x7d :: rest) := by
  cases members with
  | nil => exact endsNumber_brace rest
  | cons member members => exact endsNumber_comma _

/-! ### Items and members -/

/-- The reader reads this tree back down to a depth, and refuses it where it nests deeper. -/
def ReadsDownTo (element : Bytes → Reading Tree) (depth : Nat) (tree : Tree) : Prop :=
  ∀ rest, EndsNumber rest →
    element (tree.write ++ rest) =
      if tree.nesting ≤ depth then .ok (tree, rest) else .error .malformed

variable {element : Bytes → Reading Tree} {depth : Nat}

/-- One item is read, and then the others. -/
theorem items_item {tree : Tree} (helement : ReadsDownTo element depth tree) (turns : Nat)
    (read : List Tree) {s more : Bytes} (hends : EndsNumber more)
    (hturn : turn 0x5d read.isEmpty s = .ok (.item (tree.write ++ more))) :
    items element (turns + 1) read s =
      if tree.nesting ≤ depth then items element turns (tree :: read) more
      else .error .malformed := by
  have hfirst := helement more hends
  rw [items, hturn]
  by_cases hnesting : tree.nesting ≤ depth
  · rw [if_pos hnesting] at hfirst ⊢
    simp [hfirst]
  · rw [if_neg hnesting] at hfirst ⊢
    simp [hfirst]

theorem turn_furtherItem {tree : Tree} (hreads : tree.ReadsBack) (list : List Tree)
    (rest : Bytes) : turn 0x5d false (Tree.furtherItems (tree :: list) ++ 0x5d :: rest) =
      .ok (.item (tree.write ++ (Tree.furtherItems list ++ 0x5d :: rest))) := by
  obtain ⟨c, tail, hwrite, hspace, hclosing⟩ := Tree.write_head hreads
  have hturn := turn_further hspace hclosing (by decide)
    (tail ++ (Tree.furtherItems list ++ 0x5d :: rest))
  simpa [Tree.furtherItems, hwrite] using hturn

theorem turn_firstItem {tree : Tree} (hreads : tree.ReadsBack) (more : Bytes) :
    turn 0x5d true (tree.write ++ more) = .ok (.item (tree.write ++ more)) := by
  obtain ⟨c, tail, hwrite, hspace, hclosing⟩ := Tree.write_head hreads
  rw [hwrite]
  exact turn_first hspace hclosing _

theorem items_furtherItems {list : List Tree} (hreads : ∀ tree ∈ list, tree.ReadsBack)
    (helement : ∀ tree ∈ list, ReadsDownTo element depth tree) {turns : Nat}
    (hturns : list.length < turns) (last : Tree) (read : List Tree) (rest : Bytes) :
    items element turns (last :: read) (Tree.furtherItems list ++ 0x5d :: rest) =
      if Tree.itemsNesting list ≤ depth then .ok ((last :: read).reverse ++ list, rest)
      else .error .malformed := by
  induction list generalizing turns last read with
  | nil =>
    obtain ⟨turns, rfl⟩ := Nat.exists_eq_succ_of_ne_zero (Nat.ne_zero_of_lt hturns)
    have hclosing : turn 0x5d (last :: read).isEmpty (Tree.furtherItems [] ++ 0x5d :: rest) =
        .ok (.finished rest) := turn_closing rfl _ rest
    rw [items, hclosing]
    simp [Tree.itemsNesting]
  | cons tree list ih =>
    obtain ⟨turns, rfl⟩ := Nat.exists_eq_succ_of_ne_zero (Nat.ne_zero_of_lt hturns)
    rw [items_item (helement tree List.mem_cons_self) turns (last :: read)
      (endsNumber_furtherItems list rest)
      (turn_furtherItem (hreads tree List.mem_cons_self) list rest)]
    rw [ih (fun other hother ↦ hreads other (List.mem_cons_of_mem _ hother))
      (fun other hother ↦ helement other (List.mem_cons_of_mem _ hother))
      (Nat.lt_of_succ_lt_succ hturns) tree (last :: read)]
    by_cases hnesting : tree.nesting ≤ depth
    · simp [Tree.itemsNesting_cons_le, hnesting]
    · simp [Tree.itemsNesting_cons_le, hnesting]

/-- The items of a written array, read after its opening bracket. -/
theorem items_writeItems {list : List Tree} (hreads : ∀ tree ∈ list, tree.ReadsBack)
    (helement : ∀ tree ∈ list, ReadsDownTo element depth tree) {turns : Nat}
    (hturns : list.length < turns) (rest : Bytes) :
    items element turns [] (Tree.writeItems list ++ 0x5d :: rest) =
      if Tree.itemsNesting list ≤ depth then .ok (list, rest) else .error .malformed := by
  obtain ⟨turns, rfl⟩ := Nat.exists_eq_succ_of_ne_zero (Nat.ne_zero_of_lt hturns)
  cases list with
  | nil =>
    have hclosing : turn 0x5d ([] : List Tree).isEmpty (Tree.writeItems [] ++ 0x5d :: rest) =
        .ok (.finished rest) := turn_closing rfl _ rest
    rw [items, hclosing]
    simp [Tree.itemsNesting]
  | cons tree list =>
    rw [Tree.writeItems_cons, List.append_assoc,
      items_item (helement tree List.mem_cons_self) turns [] (endsNumber_furtherItems list rest)
        (turn_firstItem (hreads tree List.mem_cons_self) _)]
    rw [items_furtherItems (fun other hother ↦ hreads other (List.mem_cons_of_mem _ hother))
      (fun other hother ↦ helement other (List.mem_cons_of_mem _ hother))
      (Nat.lt_of_succ_lt_succ hturns) tree []]
    by_cases hnesting : tree.nesting ≤ depth
    · simp [Tree.itemsNesting_cons_le, hnesting]
    · simp [Tree.itemsNesting_cons_le, hnesting]

theorem memberName_stringBytes (name : String) (rest : Bytes) :
    memberName (stringBytes name ++ 0x3a :: rest) = .ok (name, rest) := by
  rw [stringBytes_append, memberName, text_ofString]
  simp [skipSpace_cons (c := 0x3a) rfl]

/-- One member is read, and then the others. -/
theorem members_member {member : String × Tree} (helement : ReadsDownTo element depth member.2)
    (turns : Nat) {first : Bool} (read : Fields Tree) {s more : Bytes} (hends : EndsNumber more)
    (hturn : turn 0x7d first s = .ok (.item (Tree.writeMember member ++ more))) :
    members element (turns + 1) first read s =
      if member.2.nesting ≤ depth then
        members element turns false (read.insert member.1 member.2) more
      else .error .malformed := by
  have hvalue := helement more hends
  have hname : memberName (Tree.writeMember member ++ more) =
      .ok (member.1, member.2.write ++ more) := by
    rw [Tree.writeMember, List.append_assoc]
    exact memberName_stringBytes member.1 _
  rw [members, hturn]
  by_cases hnesting : member.2.nesting ≤ depth
  · rw [if_pos hnesting] at hvalue ⊢
    simp [hname, hvalue]
  · rw [if_neg hnesting] at hvalue ⊢
    simp [hname, hvalue]

theorem turn_furtherMember (member : String × Tree) (list : List (String × Tree))
    (rest : Bytes) : turn 0x7d false (Tree.furtherMembers (member :: list) ++ 0x7d :: rest) =
      .ok (.item (Tree.writeMember member ++ (Tree.furtherMembers list ++ 0x7d :: rest))) := by
  have hturn (s : Bytes) : turn 0x7d false (0x2c :: 0x22 :: s) = .ok (.item (0x22 :: s)) :=
    turn_further rfl (by decide) (by decide) s
  simp [Tree.furtherMembers, Tree.writeMember, stringBytes, hturn]

theorem turn_firstMember (member : String × Tree) (more : Bytes) :
    turn 0x7d true (Tree.writeMember member ++ more) =
      .ok (.item (Tree.writeMember member ++ more)) := by
  have hturn (s : Bytes) : turn 0x7d true (0x22 :: s) = .ok (.item (0x22 :: s)) :=
    turn_first rfl (by decide) s
  simp [Tree.writeMember, stringBytes, hturn]

theorem members_furtherMembers {list : List (String × Tree)}
    (helement : ∀ member ∈ list, ReadsDownTo element depth member.2) {turns : Nat}
    (hturns : list.length < turns) (read : Fields Tree) (rest : Bytes) :
    members element turns false read (Tree.furtherMembers list ++ 0x7d :: rest) =
      if Tree.membersNesting list ≤ depth then .ok (read.insertAll list, rest)
      else .error .malformed := by
  induction list generalizing turns read with
  | nil =>
    obtain ⟨turns, rfl⟩ := Nat.exists_eq_succ_of_ne_zero (Nat.ne_zero_of_lt hturns)
    have hclosing : turn 0x7d false (Tree.furtherMembers [] ++ 0x7d :: rest) =
        .ok (.finished rest) := turn_closing rfl _ rest
    rw [members, hclosing]
    simp [Tree.membersNesting, Fields.insertAll]
  | cons member list ih =>
    obtain ⟨turns, rfl⟩ := Nat.exists_eq_succ_of_ne_zero (Nat.ne_zero_of_lt hturns)
    rw [members_member (helement member List.mem_cons_self) turns read
      (endsNumber_furtherMembers list rest) (turn_furtherMember member list rest)]
    rw [ih (fun other hother ↦ helement other (List.mem_cons_of_mem _ hother))
      (Nat.lt_of_succ_lt_succ hturns)]
    by_cases hnesting : member.2.nesting ≤ depth
    · simp [Tree.membersNesting_cons_le, hnesting, Fields.insertAll]
    · simp [Tree.membersNesting_cons_le, hnesting]

/-- The members of a written object, read after its opening brace. -/
theorem members_writeMembers {list : List (String × Tree)}
    (helement : ∀ member ∈ list, ReadsDownTo element depth member.2) {turns : Nat}
    (hturns : list.length < turns) (rest : Bytes) :
    members element turns true .empty (Tree.writeMembers list ++ 0x7d :: rest) =
      if Tree.membersNesting list ≤ depth then .ok (Fields.ofList list, rest)
      else .error .malformed := by
  obtain ⟨turns, rfl⟩ := Nat.exists_eq_succ_of_ne_zero (Nat.ne_zero_of_lt hturns)
  cases list with
  | nil =>
    have hclosing : turn 0x7d true (Tree.writeMembers [] ++ 0x7d :: rest) =
        .ok (.finished rest) := turn_closing rfl _ rest
    rw [members, hclosing]
    simp [Tree.membersNesting, Fields.ofList]
  | cons member list =>
    rw [Tree.writeMembers_cons, List.append_assoc,
      members_member (helement member List.mem_cons_self) turns .empty
        (endsNumber_furtherMembers list rest) (turn_firstMember member _)]
    rw [members_furtherMembers (fun other hother ↦ helement other (List.mem_cons_of_mem _ hother))
      (Nat.lt_of_succ_lt_succ hturns)]
    by_cases hnesting : member.2.nesting ≤ depth
    · simp [Tree.membersNesting_cons_le, hnesting, Fields.insertAll, Fields.ofList]
    · simp [Tree.membersNesting_cons_le, hnesting]

/-! ### Values -/

theorem length_le_length_flatMap {α : Type} (piece : α → Bytes) (list : List α) :
    list.length ≤ (list.flatMap fun item ↦ 0x2c :: piece item).length := by
  induction list with
  | nil => exact Nat.le_refl _
  | cons item list ih =>
    rw [List.flatMap_cons, List.length_append, List.length_cons, List.length_cons]
    omega

theorem length_piece_le_length_flatMap {α : Type} (piece : α → Bytes) {list : List α} {item : α}
    (hitem : item ∈ list) :
    (piece item).length ≤ (list.flatMap fun item ↦ 0x2c :: piece item).length := by
  obtain ⟨before, after, rfl⟩ := List.append_of_mem hitem
  rw [List.flatMap_append, List.flatMap_cons, List.length_append, List.length_append,
    List.length_cons]
  omega

/-- An array has fewer items than octets. -/
theorem length_lt_length_write_array (list : List Tree) :
    list.length < (Tree.array list).write.length := by
  cases list with
  | nil => exact Nat.zero_lt_succ _
  | cons tree list =>
    have hfurther := length_le_length_flatMap Tree.write list
    rw [Tree.write, Tree.writeItems_cons, Tree.furtherItems]
    simp only [List.length_cons, List.length_append, List.length_nil]
    omega

theorem length_write_item_le {list : List Tree} {tree : Tree} (htree : tree ∈ list) :
    tree.write.length ≤ (Tree.array list).write.length := by
  cases list with
  | nil => cases htree
  | cons first list =>
    rw [Tree.write, Tree.writeItems_cons, Tree.furtherItems]
    simp only [List.length_cons, List.length_append, List.length_nil]
    rcases List.mem_cons.mp htree with rfl | hfurther
    · omega
    · have hpiece := length_piece_le_length_flatMap Tree.write hfurther
      omega

/-- An object has fewer members than octets. -/
theorem length_lt_length_write_object (list : List (String × Tree)) :
    list.length < (Tree.object list).write.length := by
  cases list with
  | nil => exact Nat.zero_lt_succ _
  | cons member list =>
    have hfurther := length_le_length_flatMap Tree.writeMember list
    rw [Tree.write, Tree.writeMembers_cons, Tree.furtherMembers]
    simp only [List.length_cons, List.length_append, List.length_nil]
    omega

theorem length_write_member_le {list : List (String × Tree)} {member : String × Tree}
    (hmember : member ∈ list) :
    member.2.write.length ≤ (Tree.object list).write.length := by
  have hvalue : member.2.write.length ≤ (Tree.writeMember member).length := by
    rw [Tree.writeMember, List.length_append, List.length_cons]
    omega
  cases list with
  | nil => cases hmember
  | cons first list =>
    rw [Tree.write, Tree.writeMembers_cons, Tree.furtherMembers]
    simp only [List.length_cons, List.length_append, List.length_nil]
    rcases List.mem_cons.mp hmember with rfl | hfurther
    · omega
    · have hpiece := length_piece_le_length_flatMap Tree.writeMember hfurther
      omega

theorem valueAt_number {n : Number} (hreads : n.ReadsBack) (turns : Nat)
    (reader : Option (Bytes → Reading Tree)) {rest : Bytes} (hends : EndsNumber rest) :
    valueAt turns reader (n.bytes ++ rest) = .ok (.number n, rest) := by
  have hnumber := hreads.number_append hends
  obtain ⟨c, tail, hbytes, hc⟩ := number_head hreads
  rw [hbytes, List.cons_append] at hnumber ⊢
  have hletters : c ≠ 0x6e ∧ c ≠ 0x74 ∧ c ≠ 0x66 := by
    refine ⟨?_, ?_, ?_⟩ <;>
    · rintro rfl
      exact absurd hc (by decide)
  simp [valueAt, hletters, hc, hnumber, Except.map]

theorem valueAt_string (s : String) (turns : Nat) (reader : Option (Bytes → Reading Tree))
    (rest : Bytes) : valueAt turns reader (stringBytes s ++ rest) = .ok (.string s, rest) := by
  rw [stringBytes_append]
  simp [valueAt, isDigit, text_ofString, Except.map]

theorem valueAt_array {list : List Tree} (hreads : ∀ tree ∈ list, tree.ReadsBack)
    (helement : ∀ tree ∈ list, ReadsDownTo element depth tree) {turns : Nat}
    (hturns : list.length < turns) (rest : Bytes) :
    valueAt turns (some element) ((Tree.array list).write ++ rest) =
      if Tree.itemsNesting list ≤ depth then .ok (.array list, rest) else .error .malformed := by
  have hitems := items_writeItems hreads helement hturns rest
  have hbytes : (Tree.array list).write ++ rest =
      0x5b :: (Tree.writeItems list ++ 0x5d :: rest) := by simp [Tree.write]
  by_cases hnesting : Tree.itemsNesting list ≤ depth
  · rw [if_pos hnesting] at hitems ⊢
    simp [hbytes, valueAt, isDigit, hitems, Except.map]
  · rw [if_neg hnesting] at hitems ⊢
    simp [hbytes, valueAt, isDigit, hitems, Except.map]

/-- What is read of a written object holds its members in ascending order. -/
theorem valueAt_object {list : List (String × Tree)}
    (helement : ∀ member ∈ list, ReadsDownTo element depth member.2) {turns : Nat}
    (hturns : list.length < turns) (rest : Bytes) :
    valueAt turns (some element) ((Tree.object list).write ++ rest) =
      if Tree.membersNesting list ≤ depth then .ok (.object (Fields.ofList list).entries, rest)
      else .error .malformed := by
  have hmembers := members_writeMembers helement hturns rest
  have hbytes : (Tree.object list).write ++ rest =
      0x7b :: (Tree.writeMembers list ++ 0x7d :: rest) := by simp [Tree.write]
  by_cases hnesting : Tree.membersNesting list ≤ depth
  · rw [if_pos hnesting] at hmembers ⊢
    simp [hbytes, valueAt, isDigit, hmembers, Except.map]
  · rw [if_neg hnesting] at hmembers ⊢
    simp [hbytes, valueAt, isDigit, hmembers, Except.map]

/-- Where the nesting limit is reached, every bracket is refused. -/
theorem valueAt_bracket (turns : Nat) {c : UInt8} (hc : c = 0x5b ∨ c = 0x7b) (s : Bytes) :
    valueAt turns none (c :: s) = .error .malformed := by
  rcases hc with rfl | rfl <;> simp [valueAt, isDigit]

/-- A value that is no array and no object is read at every depth. -/
theorem valueAt_of_nesting_eq_zero {tree : Tree} (hflat : tree.nesting = 0)
    (hreads : tree.ReadsBack) (turns : Nat) (reader : Option (Bytes → Reading Tree))
    {rest : Bytes} (hends : EndsNumber rest) :
    valueAt turns reader (tree.write ++ rest) = .ok (tree, rest) := by
  cases tree with
  | null => simp [Tree.write, valueAt, word, Except.map]
  | bool b => cases b <;> simp [Tree.write, valueAt, word, Except.map]
  | number n => exact valueAt_number (hreads n (List.mem_singleton.mpr rfl)) turns reader hends
  | string s => exact valueAt_string s turns reader rest
  | array list => simp [Tree.nesting] at hflat
  | object list => simp [Tree.nesting] at hflat

theorem skipSpace_write {tree : Tree} (hreads : tree.ReadsBack) (rest : Bytes) :
    skipSpace (tree.write ++ rest) = tree.write ++ rest := by
  obtain ⟨c, tail, hwrite, hspace, -⟩ := Tree.write_head hreads
  rw [hwrite]
  exact skipSpace_cons hspace _

theorem value_write {turns : Nat} (depth : Nat) {tree : Tree} (hcanonical : tree.Canonical)
    (hreads : tree.ReadsBack) (hturns : tree.write.length ≤ turns) :
    ReadsDownTo (value turns depth) depth tree := by
  induction depth generalizing tree with
  | zero =>
    intro rest hends
    rw [value, skipSpace_write hreads]
    by_cases hflat : tree.nesting = 0
    · rw [if_pos (Nat.le_of_eq hflat)]
      exact valueAt_of_nesting_eq_zero hflat hreads turns none hends
    · rw [if_neg fun hle ↦ hflat (Nat.le_zero.mp hle)]
      cases tree with
      | array list => exact valueAt_bracket turns (Or.inl rfl) _
      | object list => exact valueAt_bracket turns (Or.inr rfl) _
      | _ => exact absurd rfl hflat
  | succ depth ih =>
    intro rest hends
    rw [value, skipSpace_write hreads]
    by_cases hflat : tree.nesting = 0
    · rw [if_pos (hflat ▸ Nat.zero_le _)]
      exact valueAt_of_nesting_eq_zero hflat hreads turns _ hends
    · cases tree with
      | array list =>
        rw [Tree.Canonical, Tree.itemsCanonical_iff] at hcanonical
        have helement : ∀ tree ∈ list, ReadsDownTo (value turns depth) depth tree :=
          fun tree htree ↦ ih (hcanonical tree htree) (hreads.item htree)
            (Nat.le_trans (length_write_item_le htree) hturns)
        have harray := valueAt_array (fun tree htree ↦ hreads.item htree) helement
          (Nat.lt_of_lt_of_le (length_lt_length_write_array list) hturns) rest
        simpa [Tree.nesting] using harray
      | object list =>
        rw [Tree.Canonical, Tree.membersCanonical_iff] at hcanonical
        have helement : ∀ member ∈ list, ReadsDownTo (value turns depth) depth member.2 :=
          fun member hmember ↦ ih (hcanonical.2 member hmember) (hreads.member hmember)
            (Nat.le_trans (length_write_member_le hmember) hturns)
        have hobject := valueAt_object helement
          (Nat.lt_of_lt_of_le (length_lt_length_write_object list) hturns) rest
        rw [Fields.ofList_entries hcanonical.1] at hobject
        simpa [Tree.nesting] using hobject
      | _ => exact absurd rfl hflat

/-! ### Whole texts -/

theorem Value.tree_injective {first second : Value} (hsame : first.tree = second.tree) :
    first = second := by
  cases first
  cases second
  cases hsame
  rfl

theorem Value.read_eq_error {s : Bytes} {fault : Fault}
    (h : value s.length nestingLimit s = .error fault) : Value.read s = .error fault := by
  have hstart : Value.readStart s = .error fault := by
    unfold Value.readStart
    split
    · next hfault =>
      cases h.symm.trans hfault
      rfl
    · next hfound => cases h.symm.trans hfound
  rw [Value.read, hstart]
  rfl

theorem Value.read_eq_ok {s : Bytes} {tree : Tree}
    (h : value s.length nestingLimit s = .ok (tree, [])) :
    ∃ value, Value.read s = .ok value ∧ value.tree = tree := by
  have hstart : ∃ value, Value.readStart s = .ok (value, []) ∧ value.tree = tree := by
    unfold Value.readStart
    split
    · next hfault => cases h.symm.trans hfault
    · next hfound =>
      cases h.symm.trans hfound
      exact ⟨_, rfl, rfl⟩
  obtain ⟨value, hvalue, htree⟩ := hstart
  refine ⟨value, ?_, htree⟩
  rw [Value.read, hvalue]
  rfl

section Members

variable {members : List (String × Tree)} (hcanonical : ∀ member ∈ members, member.2.Canonical)
  (hreads : (Tree.object members).ReadsBack)

include hcanonical hreads in
theorem value_write_members : value (Tree.object members).write.length nestingLimit
    (Tree.object members).write =
      if Tree.membersNesting members ≤ 126 then
        .ok (.object (Fields.ofList members).entries, [])
      else .error .malformed := by
  have hskip := skipSpace_write hreads []
  have helement : ∀ member ∈ members,
      ReadsDownTo (value (Tree.object members).write.length 126) 126 member.2 :=
    fun member hmember ↦ value_write 126 (hcanonical member hmember) (hreads.member hmember)
      (length_write_member_le hmember)
  have hobject := valueAt_object helement (length_lt_length_write_object members) []
  rw [List.append_nil] at hskip hobject
  rw [nestingLimit, value, hskip, hobject]

include hcanonical hreads in
/-- Members in any order are read back in the order of their names. -/
theorem Value.read_write_members (hnesting : Tree.membersNesting members ≤ 126) :
    ∃ value, Value.read (Tree.object members).write = .ok value ∧
      value.tree = .object (Fields.ofList members).entries := by
  refine Value.read_eq_ok ?_
  rw [value_write_members hcanonical hreads, if_pos hnesting]

include hcanonical hreads in
theorem Value.read_write_members_of_deep (hnesting : 126 < Tree.membersNesting members) :
    Value.read (Tree.object members).write = .error .malformed := by
  refine Value.read_eq_error ?_
  rw [value_write_members hcanonical hreads, if_neg (Nat.not_le_of_lt hnesting)]

end Members

end GelfCourier.Json
