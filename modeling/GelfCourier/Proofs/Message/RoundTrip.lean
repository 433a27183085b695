import GelfCourier.Message.Reading
import GelfCourier.Proofs.Json.RoundTrip
import GelfCourier.Record.Encoder

/-!
What becomes of a message that is written and read back. Three things decide it: how deep its
extensions nest, whether its timestamp is finite, and which of its extensions have a name with an
underscore. Nothing else can be lost, and no extension can stand in for a fixed field.
-/

set_option autoImplicit false

namespace GelfCourier

/-! ### The fields of an object -/

namespace Json.Value

theorem get?_fieldsOf {members : List (String × Tree)} (h : (Tree.object members).Canonical)
    (name : String) :
    ((fieldsOf members h).get? name).map Value.tree = Fields.lookup name members := by
  have hentries : ((fieldsOf members h).map Value.tree).entries = members := by
    calc ((fieldsOf members h).map Value.tree).entries
        = ((fieldsOf members h).entries).map fun entry ↦ (entry.1, entry.2.tree) := rfl
      _ = members.attach.map Subtype.val := List.map_map
      _ = members := List.attach_map_subtype_val members
  rw [← Fields.get?_map, Fields.get?, hentries]

theorem fields?_of_tree {value : Value} {members : List (String × Tree)}
    (htree : value.tree = .object members) : ∃ fields, value.fields? = some fields ∧
      ∀ name, (fields.get? name).map Value.tree = Fields.lookup name members := by
  obtain ⟨tree, hcanonical⟩ := value
  cases htree
  exact ⟨fieldsOf members hcanonical, rfl, get?_fieldsOf hcanonical⟩

end Json.Value

namespace Message

/-! ### Fields of the expected kind -/

section Typed

variable {fields : Fields Json.Value} {name : String}

theorem textField_eq {s : String} (h : (fields.get? name).map Json.Value.tree = some (.string s)) :
    textField fields name = .ok s := by
  obtain ⟨⟨tree, hcanonical⟩, hfound, htree⟩ := Option.map_eq_some_iff.mp h
  cases htree
  rw [textField, hfound]

theorem numberField_eq {n : Json.Number}
    (h : (fields.get? name).map Json.Value.tree = some (.number n)) :
    numberField fields name = .ok (some n) := by
  obtain ⟨⟨tree, hcanonical⟩, hfound, htree⟩ := Option.map_eq_some_iff.mp h
  cases htree
  rw [numberField, hfound]

theorem numberField_null (h : (fields.get? name).map Json.Value.tree = some .null) :
    numberField fields name = .error (.wrongType name .number) := by
  obtain ⟨⟨tree, hcanonical⟩, hfound, htree⟩ := Option.map_eq_some_iff.mp h
  cases htree
  rw [numberField, hfound]

theorem integerField_eq {n : Json.Number}
    (h : (fields.get? name).map Json.Value.tree = some (.number n)) :
    integerField fields name = .ok n.toInt64 := by
  rw [integerField, numberField_eq h]
  rfl

end Typed

theorem integer_int64 (n : Int64) :
    ∃ h, (Json.Value.integer n.toInt).tree = .number (.integer n.toInt h) ∧
      (Json.Number.integer n.toInt h).toInt64 = n := by
  have hlow := n.le_toInt
  have hhigh := n.toInt_lt
  refine ⟨by omega, ?_, ?_⟩
  · rw [Json.Value.integer, dif_pos (by omega)]
    rfl
  · rw [Json.Number.toInt64, if_pos (by omega), Int64.ofInt_toInt]

theorem integer_int32 (n : Int32) :
    ∃ h, (Json.Value.integer n.toInt).tree = .number (.integer n.toInt h) ∧
      (Json.Number.integer n.toInt h).toInt64.toInt = n.toInt ∧
      (Json.Number.integer n.toInt h).toInt64.toInt32 = n := by
  have hlow := n.le_toInt
  have hhigh := n.toInt_lt
  have hsame : (Int64.ofInt n.toInt).toInt = n.toInt :=
    Int64.toInt_ofInt_of_le (by omega) (by omega)
  refine ⟨by omega, ?_, ?_, ?_⟩
  · rw [Json.Value.integer, dif_pos (by omega)]
    rfl
  · rw [Json.Number.toInt64, if_pos (by omega), hsame]
  · rw [Json.Number.toInt64, if_pos (by omega), ← Int32.toInt_inj, Int64.toInt_toInt32, hsame]
    exact Int.bmod_eq_of_le (by omega) (by omega)

theorem levelField_eq {fields : Fields Json.Value} {n : Int32}
    (h : (fields.get? "level").map Json.Value.tree = some (Json.Value.integer n.toInt).tree) :
    levelField fields = .ok n := by
  obtain ⟨hrange, htree, hsame, hlevel⟩ := integer_int32 n
  have hlow := n.le_toInt
  have hhigh := n.toInt_lt
  rw [htree] at h
  simp only [levelField, integerField_eq h, bind, Except.bind, hsame, hlevel]
  rw [if_pos (by omega)]
  rfl

/-! ### What is written -/

/-- How deep the extensions that are written nest. -/
def extraNesting (message : Message) : Nat :=
  Json.Tree.membersNesting message.extraMembers

/-- The floats of the message are read as what was written. For the integers this always holds. -/
def FloatsReadBack (message : Message) : Prop :=
  ∀ x finite, Json.Number.float x finite ∈ message.toTree.numbers →
    (Json.Number.float x finite).ReadsBack

variable (message : Message)

theorem fixedMembers_names : message.fixedMembers.map Prod.fst = fixedNames := rfl

theorem lookup_extraMembers (name : String) :
    Fields.lookup name message.extraMembers =
      if fixedNames.contains name then none
      else (message.extra.get? name).map Json.Value.tree := by
  have hextra : Fields.lookup name message.extraMembers =
      ((message.extra.filter fun name ↦ !fixedNames.contains name).map
        Json.Value.tree).get? name := rfl
  rw [hextra, Fields.get?_map, Fields.get?_filter]
  cases fixedNames.contains name <;> rfl

/-- No name is written twice. -/
theorem names_nodup :
    ((message.fixedMembers ++ message.extraMembers).map Prod.fst).Nodup := by
  rw [List.map_append, fixedMembers_names, List.nodup_append]
  refine ⟨by decide, ?_, ?_⟩
  · exact Fields.nodup_of_ascending ((message.extra.filter fun name ↦
      !fixedNames.contains name).map Json.Value.tree).ascending
  · rintro name hfixed other hother rfl
    obtain ⟨entry, hentry, rfl⟩ := List.mem_map.mp hother
    obtain ⟨kept, hkept, rfl⟩ := List.mem_map.mp hentry
    have hkeep := (List.mem_filter.mp hkept).2
    simp [hfixed] at hkeep

theorem not_isExtensionName_of_fixed {name : String} (hfixed : name ∈ fixedNames) :
    isExtensionName name = false := by
  have hall : ∀ fixed ∈ fixedNames, isExtensionName fixed = false := by decide
  exact hall name hfixed

theorem lookup_members_of_fixed {name : String} {tree : Json.Tree}
    (h : Fields.lookup name message.fixedMembers = some tree) :
    Fields.lookup name (message.fixedMembers ++ message.extraMembers) = some tree := by
  rw [Fields.lookup_append, h, Option.some_or]

theorem lookup_members_of_extension {name : String} (hname : isExtensionName name = true) :
    Fields.lookup name (message.fixedMembers ++ message.extraMembers) =
      (message.extra.get? name).map Json.Value.tree := by
  have hfree : name ∉ fixedNames := fun hfixed ↦ by
    rw [not_isExtensionName_of_fixed hfixed] at hname
    cases hname
  have hnone : Fields.lookup name message.fixedMembers = none := by
    refine Fields.lookup_eq_none_of_forall_ne fun entry hentry hsame ↦ hfree ?_
    rw [hsame, ← fixedMembers_names message]
    exact List.mem_map_of_mem hentry
  rw [Fields.lookup_append, hnone, Option.none_or, lookup_extraMembers,
    if_neg (by simpa using hfree)]

theorem nesting_float (x : Binary64) : (Json.Value.float x).tree.nesting = 0 := by
  rw [Json.Value.float]
  split <;> rfl

theorem nesting_integer (n : Int) : (Json.Value.integer n).tree.nesting = 0 := by
  rw [Json.Value.integer]
  split <;> rfl

/-- The fixed fields hold no arrays and no objects. -/
theorem membersNesting_members :
    Json.Tree.membersNesting (message.fixedMembers ++ message.extraMembers) =
      message.extraNesting := by
  simp [fixedMembers, Json.Tree.membersNesting, Json.Tree.nesting, nesting_float,
    nesting_integer, extraNesting]

theorem members_canonical :
    ∀ member ∈ message.fixedMembers ++ message.extraMembers, member.2.Canonical := by
  intro member hmember
  rcases List.mem_append.mp hmember with hfixed | hextra
  · have hall : ∀ member ∈ message.fixedMembers, member.2.Canonical := by
      simp [fixedMembers, Json.Tree.Canonical, Json.Value.canonical]
    exact hall member hfixed
  · obtain ⟨entry, -, rfl⟩ := List.mem_map.mp hextra
    exact entry.2.canonical

variable {message}

theorem FloatsReadBack.toTree (h : message.FloatsReadBack) : message.toTree.ReadsBack := by
  intro n hn
  cases n with
  | integer n range => exact Json.Number.readsBack_integer n range
  | float x finite => exact h x finite hn

/-! ### What is read -/

/-- The fields that are read from the written form. -/
def IsReadFrom (fields : Fields Json.Value) (message : Message) : Prop :=
  ∀ name, (fields.get? name).map Json.Value.tree =
    Fields.lookup name (message.fixedMembers ++ message.extraMembers)

section Read

variable {fields : Fields Json.Value} (hfields : IsReadFrom fields message)

include hfields

theorem IsReadFrom.fixed {name : String} {tree : Json.Tree}
    (h : Fields.lookup name message.fixedMembers = some tree) :
    (fields.get? name).map Json.Value.tree = some tree := by
  rw [hfields, lookup_members_of_fixed message h]

theorem IsReadFrom.extensions :
    fields.filter isExtensionName = message.extra.filter isExtensionName := by
  refine Fields.ext_get? fun name ↦ ?_
  rw [Fields.get?_filter, Fields.get?_filter]
  split
  · next hname =>
    have hsame := hfields name
    rw [lookup_members_of_extension message hname] at hsame
    exact Option.map_injective (fun _ _ ↦ Json.Value.tree_injective) hsame
  · rfl

/-- What is read of the fixed fields other than the timestamp. -/
theorem IsReadFrom.fixedFields :
    textField fields "facility" = .ok message.facility ∧
      textField fields "file" = .ok message.file ∧
      textField fields "full_message" = .ok message.fullMessage ∧
      textField fields "host" = .ok message.host ∧
      levelField fields = .ok message.level ∧
      integerField fields "line" = .ok message.line ∧
      textField fields "short_message" = .ok message.shortMessage ∧
      textField fields "version" = .ok message.version := by
  obtain ⟨hrange, htree, hline⟩ := integer_int64 message.line
  have hlookup : Fields.lookup "line" message.fixedMembers =
      some (.number (.integer message.line.toInt hrange)) := htree ▸ rfl
  have hlineField := integerField_eq (hfields.fixed hlookup)
  rw [hline] at hlineField
  exact ⟨textField_eq (hfields.fixed rfl), textField_eq (hfields.fixed rfl),
    textField_eq (hfields.fixed rfl), textField_eq (hfields.fixed rfl),
    levelField_eq (hfields.fixed rfl), hlineField, textField_eq (hfields.fixed rfl),
    textField_eq (hfields.fixed rfl)⟩

theorem IsReadFrom.ofFields (hfinite : message.timestamp.IsFinite) :
    ofFields fields = .ok { message with extra := message.extra.filter isExtensionName } := by
  obtain ⟨hfacility, hfile, hfull, hhost, hlevel, hline, hshort, hversion⟩ := hfields.fixedFields
  have hlookup : Fields.lookup "timestamp" message.fixedMembers =
      some (.number (.float message.timestamp hfinite)) := by
    have htree : (Json.Value.float message.timestamp).tree =
        .number (.float message.timestamp hfinite) := by
      rw [Json.Value.float, dif_pos hfinite]
      rfl
    exact htree ▸ rfl
  have htimestamp := numberField_eq (hfields.fixed hlookup)
  simp only [Message.ofFields, hfacility, hfile, hfull, hhost, hlevel, hline, hshort, htimestamp,
    hversion, hfields.extensions]
  rfl

theorem IsReadFrom.ofFields_of_not_finite (hfinite : ¬ message.timestamp.IsFinite) :
    Message.ofFields fields = .error (.wrongType "timestamp" .number) := by
  obtain ⟨hfacility, hfile, hfull, hhost, hlevel, hline, hshort, -⟩ := hfields.fixedFields
  have hlookup : Fields.lookup "timestamp" message.fixedMembers = some .null := by
    have htree : (Json.Value.float message.timestamp).tree = .null := by
      rw [Json.Value.float, dif_neg hfinite]
      rfl
    exact htree ▸ rfl
  have htimestamp := numberField_null (hfields.fixed hlookup)
  simp only [Message.ofFields, hfacility, hfile, hfull, hhost, hlevel, hline, hshort, htimestamp]
  rfl

end Read

section Read

variable {message : Message} (hreads : message.FloatsReadBack)

include hreads

theorem read_toBytes_of_deep (hdeep : 126 < message.extraNesting) :
    Message.read message.toBytes = .error (.json .malformed) := by
  have hread := Json.Value.read_write_members_of_deep (members_canonical message) hreads.toTree
    (by rwa [membersNesting_members])
  rw [Message.read, toBytes, toTree, hread]

theorem read_toBytes_eq_ofFields (hflat : message.extraNesting ≤ 126) :
    ∃ fields, IsReadFrom fields message ∧ Message.read message.toBytes = ofFields fields := by
  obtain ⟨value, hread, htree⟩ := Json.Value.read_write_members (members_canonical message)
    hreads.toTree (by rwa [membersNesting_members])
  obtain ⟨fields, hfields, hlookup⟩ := Json.Value.fields?_of_tree htree
  refine ⟨fields, fun name ↦ ?_, ?_⟩
  · rw [hlookup]
    exact Fields.get?_ofList (names_nodup message) name
  · rw [Message.read, toBytes, toTree, hread]
    simp only [ofValue, hfields]

theorem read_toBytes_of_flat (hflat : message.extraNesting ≤ 126) :
    Message.read message.toBytes =
      if message.timestamp.IsFinite then
        .ok { message with extra := message.extra.filter isExtensionName }
      else .error (.wrongType "timestamp" .number) := by
  obtain ⟨fields, hfields, hread⟩ := read_toBytes_eq_ofFields hreads hflat
  rw [hread]
  split
  · next hfinite => exact hfields.ofFields hfinite
  · next hfinite => exact hfields.ofFields_of_not_finite hfinite

end Read

end Message

end GelfCourier
