import GelfCourier.Proofs.Message.Decoding

/-!
Reading an object entry by entry. The entries are visited once, in the order of their names: an
entry under a name with an underscore goes into the extension fields, one under a fixed name is
checked and stored, and any other is passed over; the visits end with the first entry that is
refused. What this gives is what the fields give when each is looked up by its name
(`foldlM_visit`).
-/

set_option autoImplicit false

namespace GelfCourier.Message

def expectText (name : String) (value : Json.Value) : Except LayoutFault String :=
  match value.tree with
  | .string s => .ok s
  | _ => .error (.wrongType name .text)

def expectNumber (name : String) (value : Json.Value) : Except LayoutFault Json.Number :=
  match value.tree with
  | .number n => .ok n
  | _ => .error (.wrongType name .number)

def expectInt32 (name : String) (value : Json.Value) : Except LayoutFault Int32 := do
  let i := (← expectNumber name value).toInt64
  if -2147483648 ≤ i.toInt ∧ i.toInt < 2147483648 then return i.toInt32
  else throw (.wrongType name .int32)

/-- One round of the loop over the entries of an object. -/
def visit (message : Message) : String × Json.Value → Except LayoutFault Message
  | (name, value) => do
    if isExtensionName name then
      return { message with extra := message.extra.insert name value }
    match name with
    | "version" => return { message with version := ← expectText name value }
    | "host" => return { message with host := ← expectText name value }
    | "short_message" => return { message with shortMessage := ← expectText name value }
    | "full_message" => return { message with fullMessage := ← expectText name value }
    | "facility" => return { message with facility := ← expectText name value }
    | "file" => return { message with file := ← expectText name value }
    | "timestamp" => return { message with timestamp := (← expectNumber name value).toBinary64 }
    | "level" => return { message with level := ← expectInt32 name value }
    | "line" => return { message with line := (← expectNumber name value).toInt64 }
    | _ => return message

variable {fields : Fields Json.Value} {message message' : Message} {name : String}
  {value : Json.Value}

theorem expectText_eq_ok_iff {s : String} :
    expectText name value = .ok s ↔ value = .string s := by
  obtain ⟨tree, hcanonical⟩ := value
  cases tree <;> simp [expectText, eq_string_iff]

theorem expectNumber_eq_ok_iff {n : Json.Number} :
    expectNumber name value = .ok n ↔ value = .number n := by
  obtain ⟨tree, hcanonical⟩ := value
  cases tree <;> simp [expectNumber, eq_number_iff]

theorem isText_insert_of_ne {other s : String} (hne : other ≠ name) :
    IsText (fields.insert name value) other s ↔ IsText fields other s := by
  simp [IsText, Fields.get?_insert, hne]

theorem isNumber_insert_of_ne {other : String} {given : Json.Number → Prop} {missing : Prop}
    (hne : other ≠ name) :
    IsNumber (fields.insert name value) other given missing ↔
      IsNumber fields other given missing := by
  simp [IsNumber, Fields.get?_insert, hne]

theorem isText_insert_self {s : String} :
    IsText (fields.insert name (.string s)) name s := by
  simp [IsText]

theorem isNumber_insert_self {n : Json.Number} {given : Json.Number → Prop} {missing : Prop}
    (h : given n) : IsNumber (fields.insert name (.number n)) name given missing :=
  .inl ⟨n, Fields.get?_insert_self fields name _, h⟩

theorem expectInt32_eq_ok_iff {i : Int32} : expectInt32 name value = .ok i ↔
    ∃ n, value = .number n ∧ i.toInt = towardZero n.value := by
  unfold expectInt32
  rw [bind_eq_ok_iff]
  simp only [expectNumber_eq_ok_iff]
  refine exists_congr fun n ↦ and_congr_right fun hn ↦ ?_
  rw [narrow_eq_ok_iff, n.toInt_toInt64, toInt_eq_intoInt64_iff]

/-- A text entry is stored as its field. -/
theorem of_expectText {next : String → Message}
    (h : (expectText name value >>= fun s ↦ pure (next s)) = .ok message') :
    ∃ s, value = .string s ∧ message' = next s := by
  obtain ⟨s, hs, hnext⟩ := bind_eq_ok_iff.mp h
  exact ⟨s, expectText_eq_ok_iff.mp hs, (Except.ok.inj hnext).symm⟩

theorem of_expectNumber {next : Json.Number → Message}
    (h : (expectNumber name value >>= fun n ↦ pure (next n)) = .ok message') :
    ∃ n, value = .number n ∧ message' = next n := by
  obtain ⟨n, hn, hnext⟩ := bind_eq_ok_iff.mp h
  exact ⟨n, expectNumber_eq_ok_iff.mp hn, (Except.ok.inj hnext).symm⟩

theorem holds_of_visit (h : Holds fields message)
    (hvisit : visit message (name, value) = .ok message') :
    Holds (fields.insert name value) message' := by
  have htext {other s : String} (hs : IsText fields other s) (hne : other ≠ name) :
      IsText (fields.insert name value) other s := (isText_insert_of_ne hne).mpr hs
  have hnumber {other : String} {given : Json.Number → Prop} {missing : Prop}
      (hn : IsNumber fields other given missing) (hne : other ≠ name) :
      IsNumber (fields.insert name value) other given missing := (isNumber_insert_of_ne hne).mpr hn
  -- What is known of a field stays true unless the entry has its name.
  have hversion := htext h.version
  have hhost := htext h.host
  have hshort := htext h.shortMessage
  have hfull := htext h.fullMessage
  have hfacility := htext h.facility
  have hfile := htext h.file
  have htimestamp := hnumber h.timestamp
  have hlevel := hnumber h.level
  have hline := hnumber h.line
  unfold visit at hvisit
  dsimp only at hvisit
  split at hvisit
  · next hextension =>
    cases hvisit
    have hne {other : String} (hother : isExtensionName other = false) : other ≠ name := by
      rintro rfl
      rw [hother] at hextension
      cases hextension
    refine ⟨hversion (hne (by decide)), hhost (hne (by decide)), hshort (hne (by decide)),
      hfull (hne (by decide)), hfacility (hne (by decide)), hfile (hne (by decide)),
      htimestamp (hne (by decide)), hlevel (hne (by decide)), hline (hne (by decide)),
      fun other ↦ ?_⟩
    rw [Fields.get?_insert, Fields.get?_insert, h.extra]
    by_cases hother : other = name
    · rw [if_pos hother, if_pos hother, hother, if_pos hextension]
    · rw [if_neg hother, if_neg hother]
  · next hplain =>
    have hextra (other : String) : message.extra.get? other =
        if isExtensionName other then (fields.insert name value).get? other else none := by
      rw [h.extra, Fields.get?_insert]
      by_cases hother : other = name
      · rw [hother, if_neg hplain, if_neg hplain]
      · rw [if_neg hother]
    split at hvisit
    · obtain ⟨s, rfl, rfl⟩ := of_expectText hvisit
      exact ⟨isText_insert_self, hhost (by decide), hshort (by decide), hfull (by decide),
        hfacility (by decide), hfile (by decide), htimestamp (by decide), hlevel (by decide),
        hline (by decide), hextra⟩
    · obtain ⟨s, rfl, rfl⟩ := of_expectText hvisit
      exact ⟨hversion (by decide), isText_insert_self, hshort (by decide), hfull (by decide),
        hfacility (by decide), hfile (by decide), htimestamp (by decide), hlevel (by decide),
        hline (by decide), hextra⟩
    · obtain ⟨s, rfl, rfl⟩ := of_expectText hvisit
      exact ⟨hversion (by decide), hhost (by decide), isText_insert_self, hfull (by decide),
        hfacility (by decide), hfile (by decide), htimestamp (by decide), hlevel (by decide),
        hline (by decide), hextra⟩
    · obtain ⟨s, rfl, rfl⟩ := of_expectText hvisit
      exact ⟨hversion (by decide), hhost (by decide), hshort (by decide), isText_insert_self,
        hfacility (by decide), hfile (by decide), htimestamp (by decide), hlevel (by decide),
        hline (by decide), hextra⟩
    · obtain ⟨s, rfl, rfl⟩ := of_expectText hvisit
      exact ⟨hversion (by decide), hhost (by decide), hshort (by decide), hfull (by decide),
        isText_insert_self, hfile (by decide), htimestamp (by decide), hlevel (by decide),
        hline (by decide), hextra⟩
    · obtain ⟨s, rfl, rfl⟩ := of_expectText hvisit
      exact ⟨hversion (by decide), hhost (by decide), hshort (by decide), hfull (by decide),
        hfacility (by decide), isText_insert_self, htimestamp (by decide), hlevel (by decide),
        hline (by decide), hextra⟩
    · obtain ⟨n, rfl, rfl⟩ := of_expectNumber hvisit
      exact ⟨hversion (by decide), hhost (by decide), hshort (by decide), hfull (by decide),
        hfacility (by decide), hfile (by decide),
        isNumber_insert_self ⟨rfl, n.isNearest_toBinary64⟩, hlevel (by decide), hline (by decide),
        hextra⟩
    · obtain ⟨i, hi, hnext⟩ := bind_eq_ok_iff.mp hvisit
      obtain ⟨n, rfl, hsame⟩ := expectInt32_eq_ok_iff.mp hi
      cases hnext
      exact ⟨hversion (by decide), hhost (by decide), hshort (by decide), hfull (by decide),
        hfacility (by decide), hfile (by decide), htimestamp (by decide),
        isNumber_insert_self hsame, hline (by decide), hextra⟩
    · obtain ⟨n, rfl, rfl⟩ := of_expectNumber hvisit
      exact ⟨hversion (by decide), hhost (by decide), hshort (by decide), hfull (by decide),
        hfacility (by decide), hfile (by decide), htimestamp (by decide), hlevel (by decide),
        isNumber_insert_self n.toInt_toInt64, hextra⟩
    · next hversion' hhost' hshort' hfull' hfacility' hfile' htimestamp' hlevel' hline' =>
      cases hvisit
      exact ⟨hversion (Ne.symm hversion'), hhost (Ne.symm hhost'), hshort (Ne.symm hshort'),
        hfull (Ne.symm hfull'), hfacility (Ne.symm hfacility'), hfile (Ne.symm hfile'),
        htimestamp (Ne.symm htimestamp'), hlevel (Ne.symm hlevel'), hline (Ne.symm hline'), hextra⟩

/-! ### A refused entry -/

theorem fault?_expectText :
    fault? (expectText name value) = (Expected.text.missedBy value.tree).map (.wrongType name) := by
  obtain ⟨tree, hcanonical⟩ := value
  cases tree <;> rfl

theorem fault?_expectNumber : fault? (expectNumber name value) =
    (Expected.number.missedBy value.tree).map (.wrongType name) := by
  obtain ⟨tree, hcanonical⟩ := value
  cases tree <;> rfl

theorem fault?_expectInt32 : fault? (expectInt32 name value) =
    (Expected.int32.missedBy value.tree).map (.wrongType name) := by
  obtain ⟨tree, hcanonical⟩ := value
  cases tree with
  | number n =>
    simp only [expectInt32, expectNumber, Except.bind, bind, Expected.missedBy]
    split <;> rfl
  | _ => rfl

/-- An entry of the layout is refused for what the layout expects there. -/
theorem exists_missedBy {α : Type} {expected : Expected} {result : Except LayoutFault α}
    {next : α → Message} {fault : LayoutFault} (hentry : (name, expected) ∈ layout)
    (hresult : fault? result = (expected.missedBy value.tree).map (.wrongType name))
    (hfault : (result >>= fun a ↦ pure (next a)) = .error fault) :
    ∃ expected reported, (name, expected) ∈ layout ∧
      expected.missedBy value.tree = some reported ∧ fault = .wrongType name reported := by
  have hnone (a : α) : fault? (pure (next a) : Except LayoutFault Message) = none := rfl
  rw [← fault?_eq_some_iff, fault?_bind hnone, Option.or_none, hresult] at hfault
  obtain ⟨reported, hmissed, rfl⟩ := Option.map_eq_some_iff.mp hfault
  exact ⟨expected, reported, hentry, hmissed, rfl⟩

theorem exists_missedBy_of_visit {fault : LayoutFault}
    (hvisit : visit message (name, value) = .error fault) :
    ∃ expected reported, (name, expected) ∈ layout ∧
      expected.missedBy value.tree = some reported ∧ fault = .wrongType name reported := by
  unfold visit at hvisit
  dsimp only at hvisit
  split at hvisit
  · cases hvisit
  · split at hvisit
    case h_7 => exact exists_missedBy (by decide) fault?_expectNumber hvisit
    case h_8 => exact exists_missedBy (by decide) fault?_expectInt32 hvisit
    case h_9 => exact exists_missedBy (by decide) fault?_expectNumber hvisit
    case h_10 => cases hvisit
    all_goals exact exists_missedBy (by decide) fault?_expectText hvisit

/-! ### The loop -/

theorem foldlM_visit_eq {done fields : Fields Json.Value} {message : Message}
    {rest : List (String × Json.Value)} (hdone : ofFields done = .ok message)
    (hentries : fields.entries = done.entries ++ rest) :
    rest.foldlM visit message = ofFields fields := by
  induction rest generalizing done message with
  | nil =>
    obtain rfl : fields = done := Fields.ext_entries (by simpa using hentries)
    exact hdone.symm
  | cons entry rest ih =>
    obtain ⟨name, value⟩ := entry
    have hascending := fields.ascending
    rw [hentries] at hascending
    obtain ⟨-, hrest, hbelow⟩ := List.pairwise_append.mp hascending
    rw [List.foldlM_cons]
    cases hvisit : visit message (name, value) with
    | ok message' =>
      have hholds := holds_of_visit (holds_of_ofFields hdone) hvisit
      refine ih (ofFields_of_holds hholds) ?_
      rw [Fields.entries_insert fun entry hentry ↦ hbelow entry hentry _ List.mem_cons_self,
        hentries, List.append_assoc, List.singleton_append]
    | error fault =>
      obtain ⟨expected, reported, hentry, hmissed, rfl⟩ := exists_missedBy_of_visit hvisit
      have hmem : (name, value) ∈ fields.entries :=
        hentries ▸ List.mem_append_right _ List.mem_cons_self
      refine (ofFields_eq_error_iff.mpr ⟨name, reported, rfl,
        ⟨value, expected, Fields.get?_of_mem hmem, hentry, hmissed⟩, ?_⟩).symm
      -- What was visited before has been accepted, and what comes later has a larger name.
      rintro other reported' ⟨value', expected', hvalue', hother, hmissed'⟩
      have hmem' := Fields.mem_of_lookup_eq_some hvalue'
      rw [hentries] at hmem'
      rcases List.mem_append.mp hmem' with hearlier | hlater
      · exact absurd ⟨value', expected', Fields.get?_of_mem hearlier, hother, hmissed'⟩
          (not_misfit_of_ofFields hdone)
      · rcases List.mem_cons.mp hlater with hsame | hlater
        · exact (Prod.mk.inj hsame).1 ▸ String.le_refl _
        · have hlt := (List.pairwise_cons.mp hrest).1 _ hlater
          exact String.not_lt.mp (String.lt_asymm hlt)

/-- One pass over the entries reads the fields. -/
theorem foldlM_visit (fields : Fields Json.Value) :
    fields.entries.foldlM visit {} = ofFields fields :=
  foldlM_visit_eq (rfl : ofFields .empty = .ok {}) rfl

/-! ### What is not looked at -/

/-- Two objects that differ at most in entries of other names. -/
def SameRead (first second : Fields Json.Value) : Prop :=
  ∀ name, name ∈ fixedNames ∨ isExtensionName name → first.get? name = second.get? name

theorem ofFields_congr {first second : Fields Json.Value} (hsame : SameRead first second) :
    ofFields first = ofFields second := by
  have htext {name : String} (hname : name ∈ fixedNames) :
      textField first name = textField second name := by
    rw [textField, textField, hsame name (.inl hname)]
  have hnumber {name : String} (hname : name ∈ fixedNames) :
      numberField first name = numberField second name := by
    rw [numberField, numberField, hsame name (.inl hname)]
  have hextra : first.filter isExtensionName = second.filter isExtensionName := by
    refine Fields.ext_get? fun name ↦ ?_
    rw [Fields.get?_filter, Fields.get?_filter]
    split
    · next hname => exact hsame name (.inr hname)
    · rfl
  unfold ofFields levelField integerField
  rw [htext (by decide : "facility" ∈ fixedNames), htext (by decide : "file" ∈ fixedNames),
    htext (by decide : "full_message" ∈ fixedNames), htext (by decide : "host" ∈ fixedNames),
    hnumber (by decide : "level" ∈ fixedNames), hnumber (by decide : "line" ∈ fixedNames),
    htext (by decide : "short_message" ∈ fixedNames),
    hnumber (by decide : "timestamp" ∈ fixedNames), htext (by decide : "version" ∈ fixedNames),
    hextra]

/-! ### Objects -/

/-- The reading of an object. -/
structure Decoding (value : Json.Value) (fields : Fields Json.Value) : Prop where
  accepted : (∃ message, ofValue value = .ok message) ↔ Typed fields
  read : ∀ message, ofValue value = .ok message ↔ Holds fields message
  refused : ∀ fault, ofValue value = .error fault ↔
    ∃ name expected, fault = .wrongType name expected ∧ FirstOffence fields name expected
  unread : ∀ other others, other.fields? = some others → SameRead others fields →
    ofValue other = ofValue value
  onePass : ofValue value = fields.entries.foldlM visit {}

/-- Assumes: the value is an object. -/
theorem decoding_of_fields? {value : Json.Value} {fields : Fields Json.Value}
    (hobject : value.fields? = some fields) : Decoding value fields := by
  have hread : ofValue value = ofFields fields := ofValue_eq hobject
  constructor
  case accepted =>
    rw [hread]
    exact exists_ofFields_eq_ok_iff
  case read =>
    intro message
    rw [hread]
    exact ofFields_eq_ok_iff
  case refused =>
    intro fault
    rw [hread]
    exact ofFields_eq_error_iff_firstOffence
  case unread =>
    intro other others hother hsame
    rw [hread, ofValue_eq hother]
    exact ofFields_congr hsame
  case onePass =>
    rw [hread]
    exact (foldlM_visit fields).symm

/-- An object with a level beyond 32 bits, a line beyond 64 bits, an extension field and a name that
means nothing. -/
def wideMembers : List (String × Json.Tree) :=
  [("_tag", .bool true), ("host", .string "h"),
    ("level", .number (.integer 4294967296 (by decide))),
    ("line", .number (.integer 18446744073709551615 (by decide))), ("other", .null)]

theorem canonical_wideMembers : (Json.Tree.object wideMembers).Canonical := by
  have hascending : Fields.Ascending wideMembers := by
    unfold Fields.Ascending
    decide
  rw [Json.Tree.Canonical]
  exact ⟨hascending, by simp [wideMembers, Json.Tree.MembersCanonical, Json.Tree.Canonical]⟩

def wideObject : Json.Value :=
  ⟨.object wideMembers, canonical_wideMembers⟩

theorem decoding_of_wideObject :
    ∃ fields, wideObject.fields? = some fields ∧ Decoding wideObject fields :=
  ⟨_, rfl, decoding_of_fields? rfl⟩

end GelfCourier.Message
