import GelfCourier.Event.Basic
import GelfCourier.Proofs.Fields.Lookup

/-!
What is gathered from the fields of an event. A field gives the text of the record where it has the
name of the text and a value that is recorded as text; every other field becomes one of the record.
Of several texts, and of several fields with one name, the last counts.
-/

set_option autoImplicit false

namespace GelfCourier

namespace EventValue

/-- The text of a value that is recorded as text. -/
inductive Says : EventValue → String → Prop where
  | string (text : String) : Says (.string text) text
  | shown (text : String) : Says (.shown text) text
  | wide (value : Int) : Says (.wide value) (toString value)
  | octets (bytes : Bytes) :
      Says (.octets bytes) ("[" ++ " ".intercalate (bytes.map fun b ↦ Bytes.toHex [b]) ++ "]")

/-- The field of a record that keeps a value. Of an error only its own text is kept. -/
inductive KeptAs : EventValue → FieldValue → Prop where
  | text {value : EventValue} {text : String} (hsaid : value.Says text) :
      KeptAs value (.plain (.string text))
  | signed (value : Int64) : KeptAs (.signed value) (.plain (.integer value.toInt))
  | unsigned (value : UInt64) : KeptAs (.unsigned value) (.plain (.integer value.toNat))
  | float (value : Binary64) : KeptAs (.float value) (.plain (.float value))
  | flag (value : Bool) : KeptAs (.flag value) (.plain (.bool value))
  | failure (text : String) (causes : List String) :
      KeptAs (.failure text causes) (.failure ⟨[text], none⟩)

theorem says_iff {value : EventValue} {text : String} :
    value.Says text ↔ value.text? = some text := by
  constructor
  · intro hsaid
    cases hsaid <;> rfl
  · intro htext
    cases value with
    | string _ => cases htext; exact .string text
    | shown _ => cases htext; exact .shown text
    | wide value => cases htext; exact .wide value
    | octets bytes => cases htext; exact .octets bytes
    | _ => cases htext

theorem keptAs_iff {value : EventValue} {field : FieldValue} :
    value.KeptAs field ↔ field = value.toField := by
  constructor
  · intro hkept
    cases hkept with
    | text hsaid => cases hsaid <;> rfl
    | _ => rfl
  · rintro rfl
    cases value with
    | string text => exact .text (.string text)
    | signed value => exact .signed value
    | unsigned value => exact .unsigned value
    | float value => exact .float value
    | flag value => exact .flag value
    | failure text causes => exact .failure text causes
    | shown text => exact .text (.shown text)
    | wide value => exact .text (.wide value)
    | octets bytes => exact .text (.octets bytes)

end EventValue

namespace Event

/-- The field gives the text of the record. -/
def givesText (field : String × EventValue) : Bool :=
  field.1 = messageField && field.2.text?.isSome

/-- The fields of an event that do not give the text of its record. -/
def ownFields (event : Event) : List (String × FieldValue) :=
  (event.fields.filter fun field ↦ !givesText field).map fun field ↦ (field.1, field.2.toField)

/-- The text that a field gives. -/
def told? (field : String × EventValue) : Option String :=
  if field.1 = messageField then field.2.text? else none

/-- The last text that a field of an event gives. -/
def text? (event : Event) : Option String :=
  event.fields.reverse.findSome? told?

/-- The last value that was recorded under a name. -/
def last? (event : Event) (name : String) : Option EventValue :=
  Fields.lookup name event.fields.reverse

/-- The last value under the name of the text that is not recorded as text. -/
def untold? (event : Event) : Option EventValue :=
  Fields.lookup messageField (event.fields.reverse.filter fun field ↦ field.2.text?.isNone)

/-! ### The fields of the record -/

theorem fields_add (gathered : Gathered) (field : String × EventValue) :
    (gathered.add field).fields =
      if givesText field then gathered.fields
      else gathered.fields.insert field.1 field.2.toField := by
  unfold Gathered.add givesText
  cases field.2.text? with
  | none => simp
  | some text => by_cases hname : field.1 = messageField <;> simp [hname]

/-- Of several fields with one name the last counts. -/
theorem fields_gather (event : Event) : event.gather.fields = .ofList event.ownFields := by
  unfold gather ownFields Fields.ofList
  change _ = List.foldl _ (({} : Gathered).fields) _
  generalize ({} : Gathered) = gathered
  induction event.fields generalizing gathered with
  | nil => rfl
  | cons field rest ih =>
    rw [List.foldl_cons, ih, fields_add]
    by_cases htext : givesText field = true
    · rw [if_pos htext, List.filter_cons_of_neg (by simp [htext])]
    · rw [if_neg htext, List.filter_cons_of_pos (by simp [htext])]
      rfl

/-- Under the name of the text the record has what is not text, and under any other the last
value. -/
theorem get?_gather (event : Event) (name : String) :
    event.gather.fields.get? name =
      (if name = messageField then event.untold? else event.last? name).map EventValue.toField := by
  rw [fields_gather, Fields.get?_ofList_reverse, ownFields, ← List.map_reverse,
    ← List.filter_reverse, Fields.lookup_map]
  by_cases hname : name = messageField
  · have hsame (field : String × EventValue) (hfield : field.1 = name) :
        (!givesText field) = field.2.text?.isNone := by
      unfold givesText
      cases field.2.text? <;> simp [hfield, hname]
    rw [if_pos hname, Fields.lookup_filter_congr hsame, hname]
    rfl
  · have hsame (field : String × EventValue) (hfield : field.1 = name) :
        (!givesText field) = true := by
      simp [givesText, hfield, hname]
    rw [if_neg hname, Fields.lookup_filter_congr hsame, List.filter_eq_self.mpr fun _ _ ↦ rfl]
    rfl

theorem untold?_eq_none_iff (event : Event) :
    event.untold? = none ↔
      ∀ value, (messageField, value) ∈ event.fields → value.text?.isSome = true := by
  unfold untold?
  rw [Fields.lookup_eq_none_iff]
  constructor
  · intro hnone value hvalue
    refine Option.isSome_iff_ne_none.mpr fun huntold ↦ ?_
    exact hnone (messageField, value)
      (List.mem_filter.mpr ⟨List.mem_reverse.mpr hvalue, Option.isNone_iff_eq_none.mpr huntold⟩) rfl
  · rintro htold ⟨name, value⟩ hfield rfl
    obtain ⟨hmem, huntold⟩ := List.mem_filter.mp hfield
    have htext := htold value (List.mem_reverse.mp hmem)
    rw [Option.isNone_iff_eq_none] at huntold
    rw [huntold] at htext
    cases htext

/-! ### The text of the record -/

theorem message_add (gathered : Gathered) (field : String × EventValue) :
    (gathered.add field).message = (told? field).or gathered.message := by
  unfold Gathered.add told?
  cases field.2.text? with
  | none => simp
  | some text => by_cases hname : field.1 = messageField <;> simp [hname]

theorem message_gather (event : Event) : event.gather.message = event.text? := by
  have hfold (fields : List (String × EventValue)) (gathered : Gathered) :
      (fields.foldl Gathered.add gathered).message =
        (fields.reverse.findSome? told?).or gathered.message := by
    induction fields generalizing gathered with
    | nil => rfl
    | cons field rest ih =>
      rw [List.foldl_cons, ih, message_add, List.reverse_cons, List.findSome?_append,
        Option.or_assoc, List.findSome?_singleton]
  exact (hfold event.fields {}).trans (Option.or_none)

theorem message_toRecord (event : Event) (time : Instant) :
    (event.toRecord time).message = event.text?.getD "" :=
  congrArg (Option.getD · "") (message_gather event)

/-- Where every value under the name of the text is recorded as text, the last of them counts. -/
theorem text?_of_untold_eq_none {event : Event} (hnone : event.untold? = none) :
    event.text? = (event.last? messageField).bind EventValue.text? := by
  have htold : ∀ field ∈ event.fields.reverse, field.1 = messageField →
      field.2.text?.isSome = true := by
    rintro ⟨name, value⟩ hfield rfl
    exact (untold?_eq_none_iff event).mp hnone value (List.mem_reverse.mp hfield)
  unfold text? last?
  generalize event.fields.reverse = fields at htold
  induction fields with
  | nil => rfl
  | cons field rest ih =>
    obtain ⟨hfirst, hrest⟩ := List.forall_mem_cons.mp htold
    rw [List.findSome?_cons, Fields.lookup, told?]
    by_cases hname : field.1 = messageField
    · obtain ⟨text, htext⟩ := Option.isSome_iff_exists.mp (hfirst hname)
      rw [if_pos hname, if_pos hname.symm, htext, Option.bind_some, htext]
    · rw [if_neg hname, if_neg (Ne.symm hname), ih hrest]

/-! ### What comes last -/

/-- The last entry of a list for which something holds. -/
def IsLast {β : Type} (Holds : β → Prop) (entries : List β) (entry : β) : Prop :=
  ∃ before after, entries = before ++ entry :: after ∧ Holds entry ∧
    ∀ later ∈ after, ¬ Holds later

/-- The field gives the text of the record. -/
def TellsText (field : String × EventValue) : Prop :=
  field.1 = "message" ∧ ∃ text, field.2.Says text

theorem isLast_iff_find? {β : Type} {Holds : β → Prop} {holds : β → Bool}
    (hsame : ∀ entry, holds entry = true ↔ Holds entry) {entries : List β} {entry : β} :
    IsLast Holds entries entry ↔ entries.reverse.find? holds = some entry := by
  rw [List.find?_eq_some_iff_append]
  constructor
  · rintro ⟨before, after, rfl, hentry, hlater⟩
    refine ⟨(hsame entry).mpr hentry, after.reverse, before.reverse, by simp, fun later hmem ↦ ?_⟩
    have hnot := mt (hsame later).mp (hlater later (List.mem_reverse.mp hmem))
    rw [Bool.eq_false_iff.mpr hnot]
    rfl
  · rintro ⟨hentry, after, before, hreverse, hlater⟩
    have hentries : entries = before.reverse ++ entry :: after.reverse := by
      rw [← entries.reverse_reverse, hreverse]
      simp
    refine ⟨before.reverse, after.reverse, hentries, (hsame entry).mp hentry,
      fun later hmem hholds ↦ ?_⟩
    have hnot := hlater later (List.mem_reverse.mp hmem)
    rw [(hsame later).mpr hholds] at hnot
    cases hnot

theorem told?_eq_some_iff {field : String × EventValue} {text : String} :
    told? field = some text ↔ field.1 = "message" ∧ field.2.Says text := by
  rw [told?, EventValue.says_iff]
  exact Option.ite_none_right_eq_some

theorem givesText_iff {field : String × EventValue} :
    givesText field = true ↔ TellsText field := by
  simp only [givesText, TellsText, EventValue.says_iff, Bool.and_eq_true, decide_eq_true_eq,
    Option.isSome_iff_exists]
  exact Iff.rfl

/-- A field of the record is the last of its name that does not give the text. -/
theorem get?_gather_eq_some_iff {event : Event} {name : String} {field : FieldValue} :
    event.gather.fields.get? name = some field ↔ ∃ value,
      IsLast (fun other ↦ other.1 = name ∧ ¬ TellsText other) event.fields (name, value) ∧
        value.KeptAs field := by
  have hsame (other : String × EventValue) : (!givesText other && (name = other.1)) = true ↔
      other.1 = name ∧ ¬ TellsText other := by
    rw [← givesText_iff]
    cases givesText other <;> simp [eq_comm]
  have hfound : event.gather.fields.get? name =
      (event.fields.reverse.find? fun other ↦ !givesText other && (name = other.1)).map
        fun other ↦ other.2.toField := by
    rw [fields_gather, Fields.get?_ofList_reverse, ownFields, ← List.map_reverse,
      ← List.filter_reverse, Fields.lookup_map, Fields.lookup_eq_find?, List.find?_filter,
      Option.map_map]
    simp only [Bool.decide_and, Bool.decide_eq_true]
    rfl
  simp only [hfound, Option.map_eq_some_iff, isLast_iff_find? hsame, EventValue.keptAs_iff]
  constructor
  · rintro ⟨⟨other, value⟩, hlast, rfl⟩
    have hholds := List.find?_some hlast
    obtain ⟨rfl, -⟩ := (hsame (other, value)).mp hholds
    exact ⟨value, hlast, rfl⟩
  · rintro ⟨value, hlast, rfl⟩
    exact ⟨_, hlast, rfl⟩

/-- The text of the record is the last that a field gives. -/
theorem text?_of_isLast {event : Event} {name text : String} {value : EventValue}
    (hlast : IsLast TellsText event.fields (name, value)) (hsaid : value.Says text) :
    event.text? = some text := by
  obtain ⟨before, after, hfields, ⟨hname, -⟩, hlater⟩ := hlast
  have hnone : after.reverse.findSome? told? = none := by
    refine List.findSome?_eq_none_iff.mpr fun later hmem ↦ ?_
    refine Option.eq_none_iff_forall_ne_some.mpr fun other htold ↦ ?_
    obtain ⟨hmessage, hother⟩ := told?_eq_some_iff.mp htold
    exact hlater later (List.mem_reverse.mp hmem) ⟨hmessage, other, hother⟩
  rw [text?, hfields, List.reverse_append, List.findSome?_append, List.reverse_cons,
    List.findSome?_append, hnone, Option.none_or, List.findSome?_singleton,
    told?_eq_some_iff.mpr ⟨hname, hsaid⟩, Option.some_or]

theorem message_of_isLast {event : Event} {name text : String} {value : EventValue}
    (hlast : IsLast TellsText event.fields (name, value)) (hsaid : value.Says text)
    (time : Instant) : (event.toRecord time).message = text := by
  rw [message_toRecord, text?_of_isLast hlast hsaid, Option.getD_some]

theorem text?_eq_none {event : Event} (hnone : ∀ field ∈ event.fields, ¬ TellsText field) :
    event.text? = none := by
  refine List.findSome?_eq_none_iff.mpr fun field hmem ↦ ?_
  refine Option.eq_none_iff_forall_ne_some.mpr fun text htold ↦ ?_
  obtain ⟨hmessage, hsaid⟩ := told?_eq_some_iff.mp htold
  exact hnone field (List.mem_reverse.mp hmem) ⟨hmessage, text, hsaid⟩

end Event

end GelfCourier
