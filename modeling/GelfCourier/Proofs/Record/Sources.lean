import GelfCourier.Proofs.Fields.Lookup
import GelfCourier.Proofs.Message.Encoding
import GelfCourier.Record.Encoder

/-!
Where the extension fields of a message come from. A name is looked up in the fields of the log
call, then it may be that of the trace, then that of a part of its caller, and last that of a static
field; the first of these that knows it counts. The trace is put in between the fields of the call,
behind the failure that it belongs to, and a field of its name comes later still, because fields are
kept in the order of their names.
-/

set_option autoImplicit false

namespace GelfCourier

open Message

def FieldValue.trace? : FieldValue → Option String
  | .plain _ => none
  | .failure cause => cause.trace

/-- The part of a caller under its name. -/
def Caller.part? (caller : Caller) (name : String) : Option Json.Value :=
  if name = "caller_file" then some (.string caller.file)
  else if name = "caller_line" then some (.integer caller.line.toNat)
  else if name = "caller_function" then some (.string caller.function)
  else none

/-- The trace that a field shows. -/
def shownTrace? (entry : String × FieldValue) : Option String :=
  if entry.1 = errorField then entry.2.trace? else none

/-- What a field shows: its value, or the causes of its failure on one line. -/
inductive FieldValue.Shows : FieldValue → Json.Value → Prop where
  | plain (value : Json.Value) : Shows (.plain value) value
  | failure (causes : List String) (trace : Option String) :
      Shows (.failure ⟨causes, trace⟩) (.string (": ".intercalate causes))

theorem FieldValue.shows_toValue (field : FieldValue) : field.Shows field.toValue := by
  cases field with
  | plain value => exact .plain value
  | failure cause => exact .failure cause.causes cause.trace

/-- The trace of the failure under `errorField`, under the name of a trace. -/
def traceOf? (fields : List (String × FieldValue)) (name : String) : Option Json.Value :=
  if name = traceField then
    ((Fields.lookup errorField fields).bind FieldValue.trace?).map Json.Value.string
  else none

/-- The trace of the failure that a log call has as its error. -/
def Record.trace? (record : Record) : Option String :=
  (record.fields.get? "error").bind FieldValue.trace?

/-- What is known under a name for a log call that has no field of this name: its trace, its caller,
and what is added to all. -/
def Encoder.background? (encoder : Encoder) (record : Record) (name : String) :
    Option Json.Value :=
  (if name = "stacktrace" then record.trace?.map Json.Value.string else none).or <|
    (record.caller.bind (Caller.part? · name)).or (encoder.extra.get? name)

theorem extensionName_injective : Function.Injective extensionName := by
  intro first second hsame
  have hlists := congrArg String.toList hsame
  exact String.ext (by simpa [extensionName] using hlists)

theorem isExtensionName_iff {key : String} :
    isExtensionName key = true ↔ ∃ name, key = extensionName name := by
  constructor
  · intro hkey
    obtain ⟨rest, hrest⟩ : ∃ rest, key.toList = '_' :: rest := by
      simpa [isExtensionName, List.head?_eq_some_iff] using hkey
    exact ⟨String.ofList rest, String.ext (by simpa [extensionName] using hrest)⟩
  · rintro ⟨name, rfl⟩
    exact Encoder.isExtensionName_extensionName name

namespace Encoder

variable {extra : Fields Json.Value} {name : String}

theorem get?_insert_extension (extra : Fields Json.Value) (inserted name : String)
    (value : Json.Value) :
    (extra.insert (extensionName inserted) value).get? (extensionName name) =
      if name = inserted then some value else extra.get? (extensionName name) := by
  rw [Fields.get?_insert]
  exact if_congr extensionName_injective.eq_iff rfl rfl

theorem get?_addStatic (static extra : Fields Json.Value) (name : String) :
    (addStatic static extra).get? (extensionName name) =
      (static.get? name).or (extra.get? (extensionName name)) := by
  have hdistinct := Fields.nodup_of_ascending static.ascending
  unfold addStatic Fields.get?
  generalize static.entries = entries at hdistinct
  induction entries generalizing extra with
  | nil => rfl
  | cons entry rest ih =>
    obtain ⟨hfresh, hrest⟩ := List.nodup_cons.mp hdistinct
    have hinsert := get?_insert_extension extra entry.1 name entry.2
    unfold Fields.get? at hinsert
    rw [List.foldl_cons, ih _ hrest, hinsert, Fields.lookup]
    by_cases hname : name = entry.1
    · have hnone : Fields.lookup name rest = none :=
        Fields.lookup_eq_none_of_forall_ne fun other hother hsame ↦
          hfresh (List.mem_map.mpr ⟨other, hother, by rw [← hsame, hname]⟩)
      rw [if_pos hname, if_pos hname, hnone]
      rfl
    · rw [if_neg hname, if_neg hname]

theorem get?_addCaller (caller : Option Caller) (extra : Fields Json.Value) (name : String) :
    (addCaller caller extra).get? (extensionName name) =
      (caller.bind (Caller.part? · name)).or (extra.get? (extensionName name)) := by
  cases caller with
  | none => rfl
  | some caller =>
    unfold addCaller
    rw [Option.bind_some, Caller.part?]
    simp only [get?_insert_extension]
    by_cases hfile : name = "caller_file"
    · subst hfile
      rfl
    · by_cases hline : name = "caller_line"
      · subst hline
        rfl
      · by_cases hfunction : name = "caller_function"
        · subst hfunction
          rfl
        · simp [hfile, hline, hfunction]

theorem addField_eq (extra : Fields Json.Value) (entry : String × FieldValue) :
    addField extra entry =
      match shownTrace? entry with
      | none => extra.insert (extensionName entry.1) entry.2.toValue
      | some trace =>
        (extra.insert (extensionName entry.1) entry.2.toValue).insert (extensionName traceField)
          (.string trace) := by
  obtain ⟨key, value⟩ := entry
  unfold addField shownTrace?
  cases value with
  | plain value =>
    by_cases hkey : key = errorField <;> simp [hkey, FieldValue.trace?]
  | failure cause =>
    obtain ⟨causes, _ | trace⟩ := cause <;>
      by_cases hkey : key = errorField <;> simp [hkey, FieldValue.trace?]

/-- What one field of a call puts under a name. -/
theorem get?_addField (extra : Fields Json.Value) (entry : String × FieldValue) (name : String) :
    (addField extra entry).get? (extensionName name) =
      (if name = traceField then (shownTrace? entry).map .string else none).or
        (if name = entry.1 then some entry.2.toValue else extra.get? (extensionName name)) := by
  rw [addField_eq]
  cases shownTrace? entry with
  | none =>
    dsimp only
    rw [get?_insert_extension, Option.map_none, ite_self, Option.none_or]
  | some trace =>
    dsimp only
    rw [get?_insert_extension, get?_insert_extension]
    split <;> rfl

theorem traceOf?_eq_none {fields : List (String × FieldValue)}
    (hnone : Fields.lookup errorField fields = none) (name : String) :
    traceOf? fields name = none := by
  rw [traceOf?, hnone]
  exact ite_self none

theorem traceOf?_cons {entry : String × FieldValue} {rest : List (String × FieldValue)}
    (hascending : Fields.Ascending (entry :: rest)) (name : String) :
    traceOf? (entry :: rest) name = (traceOf? rest name).or
      (if name = traceField then (shownTrace? entry).map .string else none) := by
  unfold shownTrace?
  by_cases hkey : errorField = entry.1
  · have hnone := traceOf?_eq_none (hkey ▸ Fields.lookup_tail_eq_none hascending) name
    rw [hnone, Option.none_or, if_pos hkey.symm, traceOf?, Fields.lookup, if_pos hkey]
    rfl
  · have hother : ¬ entry.1 = errorField := fun hsame ↦ hkey hsame.symm
    rw [if_neg hother, Option.map_none, ite_self, Option.or_none, traceOf?, Fields.lookup,
      if_neg hkey, ← traceOf?]

/-- Behind a field under the name of a trace there is no failure that shows one. -/
theorem traceOf?_tail {entry : String × FieldValue} {rest : List (String × FieldValue)}
    (hascending : Fields.Ascending (entry :: rest)) : traceOf? rest entry.1 = none := by
  by_cases hname : entry.1 = traceField
  · have hbefore : errorField < entry.1 := hname ▸ by decide
    have hnone := Fields.lookup_eq_none_of_lt hascending hbefore
    rw [Fields.lookup, if_neg (String.ne_of_lt hbefore)] at hnone
    exact traceOf?_eq_none hnone entry.1
  · exact if_neg hname

theorem shownTrace?_eq_none {entry : String × FieldValue} (hname : entry.1 = traceField) :
    shownTrace? entry = none := by
  rw [shownTrace?, hname]
  exact if_neg (by decide)

/-- The fields of a call, in the order of their names, go before everything that was there, and a
trace goes behind them. -/
theorem get?_foldl_addField {entries : List (String × FieldValue)}
    (hascending : Fields.Ascending entries) (extra : Fields Json.Value) (name : String) :
    (entries.foldl addField extra).get? (extensionName name) =
      ((Fields.lookup name entries).map FieldValue.toValue).or
        ((traceOf? entries name).or (extra.get? (extensionName name))) := by
  induction entries generalizing extra with
  | nil =>
    rw [traceOf?_eq_none rfl]
    rfl
  | cons entry rest ih =>
    rw [List.foldl_cons, ih hascending.tail, get?_addField, traceOf?_cons hascending,
      Fields.lookup]
    by_cases hname : name = entry.1
    · subst hname
      have hshown : (if entry.1 = traceField then (shownTrace? entry).map Json.Value.string
          else none) = none := by
        split
        · next htrace => rw [shownTrace?_eq_none htrace, Option.map_none]
        · rfl
      rw [Fields.lookup_tail_eq_none hascending, traceOf?_tail hascending, hshown, if_pos rfl,
        if_pos rfl]
      rfl
    · rw [if_neg hname, if_neg hname, Option.or_assoc]

theorem get?_extraFields (encoder : Encoder) (record : Record) (name : String) :
    (encoder.extraFields record).get? (extensionName name) =
      ((record.fields.get? name).map FieldValue.toValue).or (encoder.background? record name) := by
  rw [extraFields, get?_foldl_addField record.fields.ascending, get?_addCaller, get?_addStatic,
    Fields.get?_empty, Option.or_none]
  rfl

/-- Where the extensions of an encoded log call come from. -/
structure Extended (encoder : Encoder) (record : Record) (extra : Fields Json.Value) : Prop where
  /-- A field of the call is never lost, whatever else is known under its name. -/
  own : ∀ name field, record.fields.get? name = some field →
    ∃ shown, field.Shows shown ∧ extra.get? ("_" ++ name) = some shown
  /-- Under any other name there is what is known without the fields. -/
  other : ∀ name, record.fields.get? name = none →
    extra.get? ("_" ++ name) = encoder.background? record name
  named_iff : ∀ key, (extra.get? key).isSome = true ↔ ∃ name, key = "_" ++ name ∧
    ((record.fields.get? name).isSome = true ∨ (encoder.background? record name).isSome = true)

/-- Each extension of an encoded log call is known to one of the sources, of which the nearest
counts, and no field of the call is lost, whatever the names are. -/
theorem extra_encode (encoder : Encoder) (record : Record) :
    Extended encoder record (encoder.encode record).extra := by
  have hknown : ∀ name, (encoder.encode record).extra.get? ("_" ++ name) =
      ((record.fields.get? name).map FieldValue.toValue).or (encoder.background? record name) :=
    get?_extraFields encoder record
  refine ⟨fun name field hfield ↦ ?_, fun name hnone ↦ ?_, fun key ↦ ⟨fun hsome ↦ ?_, ?_⟩⟩
  · refine ⟨field.toValue, field.shows_toValue, ?_⟩
    rw [hknown, hfield]
    rfl
  · rw [hknown, hnone]
    rfl
  · have hkey : isExtensionName key = true := by
      by_contra hplain
      have hnone := encoder.allExtensions_extraFields record key (Bool.eq_false_iff.mpr hplain)
      rw [encode, hnone] at hsome
      cases hsome
    obtain ⟨name, rfl⟩ := isExtensionName_iff.mp hkey
    rw [extensionName, hknown] at hsome
    exact ⟨name, rfl, by simpa using hsome⟩
  · rintro ⟨name, rfl, hsome⟩
    rw [hknown]
    simpa using hsome

end Encoder

end GelfCourier
