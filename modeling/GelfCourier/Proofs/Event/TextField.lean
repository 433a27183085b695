import GelfCourier.Proofs.Event.Gathering
import GelfCourier.Proofs.Record.Sources
import GelfCourier.Proofs.Record.TextSplit

/-!
The field of an event that is named for the text. Only a value that is recorded as text becomes the
text of the record. A number, a flag or an error under this name stays a field, so the text is empty
or an older one, and the message has an extension that stands for the text.
-/

set_option autoImplicit false

namespace GelfCourier.Event

/-- The value under the name of the text is the text, whatever its kind, and every other name has
the value that was recorded last. The text of a value is `form`. -/
structure Renders (form : EventValue → String) (event : Event) (record : Record) : Prop where
  message_eq : ∀ value, event.last? messageField = some value → record.message = form value
  get?_text : record.fields.get? messageField = none
  get?_other : ∀ name, name ≠ messageField →
    record.fields.get? name = (event.last? name).map EventValue.toField

variable {event : Event} {time : Instant}

theorem get?_toRecord (event : Event) (time : Instant) (name : String) :
    (event.toRecord time).fields.get? name =
      (if name = messageField then event.untold? else event.last? name).map EventValue.toField :=
  get?_gather event name

/-- No part of a caller and no trace has the name of the text. -/
theorem field?_encode (encoder : Encoder) (record : Record) :
    (encoder.encode record).field? messageField =
      ((record.fields.get? messageField).map FieldValue.toValue).or
        (encoder.extra.get? messageField) := by
  have hcaller : (record.caller.bind fun caller ↦ caller.part? messageField) = none := by
    cases record.caller <;> rfl
  rw [Message.field?, Encoder.encode, Encoder.get?_extraFields, Encoder.background?,
    if_neg (by decide), hcaller, Option.none_or, Option.none_or]

theorem shortMessage_encode_eq_empty_iff (encoder : Encoder) (record : Record) :
    (encoder.encode record).shortMessage = "" ↔
      ∀ c ∈ record.message.toList, Text.isBlank c = true := by
  rw [← Encoder.shortText_eq_nil_iff, Encoder.encode, ← String.toList_inj, String.toList_ofList]
  rfl

theorem renders_iff {form : EventValue → String}
    (hform : ∀ value text, value.text? = some text → form value = text) (event : Event)
    (time : Instant) : Renders form event (event.toRecord time) ↔
      ∀ value, (messageField, value) ∈ event.fields → value.text?.isSome = true := by
  rw [← untold?_eq_none_iff]
  constructor
  · intro hrenders
    have hnone := hrenders.get?_text
    rw [get?_toRecord, if_pos rfl] at hnone
    exact Option.map_eq_none_iff.mp hnone
  · intro hnone
    refine ⟨fun value hvalue ↦ ?_, ?_, fun name hname ↦ ?_⟩
    · have htold := (untold?_eq_none_iff event).mp hnone value
        (List.mem_reverse.mp (Fields.mem_of_lookup_eq_some hvalue))
      obtain ⟨text, htext⟩ := Option.isSome_iff_exists.mp htold
      rw [message_toRecord, text?_of_untold_eq_none hnone, hvalue, Option.bind_some, htext,
        hform value text htext, Option.getD_some]
    · rw [get?_toRecord, if_pos rfl, hnone, Option.map_none]
    · rw [get?_toRecord, if_neg hname]

/-- What a record keeps of the fields of an event. -/
structure Recorded (event : Event) (time : Instant) : Prop where
  /-- The text is the last value under its name that was recorded as text. -/
  message_eq : (event.toRecord time).message = event.text?.getD ""
  /-- Its kind says which text that is. -/
  told : ∀ name value text, IsLast TellsText event.fields (name, value) → value.Says text →
    (event.toRecord time).message = text
  /-- Every other field has its own name and the value that was recorded last. -/
  get?_eq : ∀ name, (event.toRecord time).fields.get? name =
    (if name = messageField then event.untold? else event.last? name).map EventValue.toField
  /-- Its kind says how. -/
  kept : ∀ name field, (event.toRecord time).fields.get? name = some field ↔ ∃ value,
    (if name = messageField then event.untold? else event.last? name) = some value ∧
      value.KeptAs field
  /-- A value of another kind under the name of the text stays a field. -/
  untold_iff : event.untold?.isSome = true ↔
    ∃ value, (messageField, value) ∈ event.fields ∧ value.text? = none
  /-- The short message is empty just where the text is blank. -/
  short_iff : ∀ encoder : Encoder, (encoder.encode (event.toRecord time)).shortMessage = "" ↔
    ∀ c ∈ (event.toRecord time).message.toList, Text.isBlank c = true
  /-- The extension under the name of the text is such a field, or one that is added to all. -/
  extension_eq : ∀ encoder : Encoder,
    (encoder.encode (event.toRecord time)).field? messageField =
      (event.untold?.map fun value ↦ value.toField.toValue).or (encoder.extra.get? messageField)
  /-- Such a field is an extension that shows the value. -/
  shown : ∀ (encoder : Encoder) value, event.untold? = some value → ∃ field shown,
    value.KeptAs field ∧ field.Shows shown ∧
      (encoder.encode (event.toRecord time)).field? messageField = some shown
  /-- The value under the name of the text is the text exactly where there are only texts. -/
  renders_iff : ∀ form : EventValue → String,
    (∀ value text, value.text? = some text → form value = text) →
      (Renders form event (event.toRecord time) ↔
        ∀ value, (messageField, value) ∈ event.fields → value.text?.isSome = true)

theorem recorded_toRecord (event : Event) (time : Instant) : Recorded event time where
  message_eq := message_toRecord event time
  told := fun _ _ _ hlast hsaid ↦ message_of_isLast hlast hsaid time
  get?_eq := get?_toRecord event time
  kept := by
    intro name field
    rw [get?_toRecord, Option.map_eq_some_iff]
    exact exists_congr fun value ↦ and_congr_right fun _ ↦
      eq_comm.trans EventValue.keptAs_iff.symm
  untold_iff := by
    rw [← not_iff_not, Bool.not_eq_true, Option.isSome_eq_false_iff, Option.isNone_iff_eq_none,
      untold?_eq_none_iff]
    simp [Option.isSome_iff_ne_none]
  short_iff := fun encoder ↦ shortMessage_encode_eq_empty_iff encoder _
  extension_eq := by
    intro encoder
    rw [field?_encode, get?_toRecord, if_pos rfl, Option.map_map]
    rfl
  shown := by
    intro encoder value hvalue
    refine ⟨_, _, EventValue.keptAs_iff.mpr rfl, FieldValue.shows_toValue _, ?_⟩
    rw [field?_encode, get?_toRecord, if_pos rfl, hvalue]
    rfl
  renders_iff := fun _ hform ↦ renders_iff hform event time

/-- A number under the name of the text leaves the text empty and becomes an extension. -/
theorem misplaces_number : ∃ event : Event, event.last? messageField = some (.signed 42) ∧
    ∀ (encoder : Encoder) (time : Instant),
      (encoder.encode (event.toRecord time)).shortMessage = "" ∧
        (encoder.encode (event.toRecord time)).field? messageField = some (.integer 42) ∧
          ∀ form : EventValue → String, ¬ Renders form event (event.toRecord time) := by
  let event : Event :=
    { level := .info, target := "app", fields := [(messageField, .signed 42)] }
  refine ⟨event, rfl, fun encoder time ↦ ⟨rfl, ?_, fun form hrenders ↦ ?_⟩⟩
  · rw [field?_encode]
    rfl
  · have hnone := hrenders.get?_text
    cases hnone

end GelfCourier.Event
