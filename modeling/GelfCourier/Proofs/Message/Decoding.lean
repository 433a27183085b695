import GelfCourier.Proofs.Message.Layout
import GelfCourier.Proofs.Number.Truncation
import Mathlib.Tactic.Tauto

/-!
What an object has to be to be read as a message, and which message it is. The conditions speak of
the entries of the object alone: a text field is absent or a string, a number field absent or a
number, and the level does not leave 32 bits when it is cut off after the point. An object that
meets them is read field by field, whatever else stands in it (`ofFields_eq_ok_iff`); one that does
not is refused with its first offence in the order of the octets of the names
(`ofFields_eq_error_iff_firstOffence`).
-/

set_option autoImplicit false

namespace GelfCourier.Message

def textNames : List String :=
  ["version", "host", "short_message", "full_message", "facility", "file"]

def numberNames : List String :=
  ["timestamp", "level", "line"]

def FitsInt32 (n : ℤ) : Prop :=
  -2147483648 ≤ n ∧ n < 2147483648

/-- Every fixed field that is there is of its kind. -/
structure Typed (fields : Fields Json.Value) : Prop where
  text : ∀ name ∈ textNames, fields.get? name = none ∨
    ∃ s, fields.get? name = some (.string s)
  number : ∀ name ∈ numberNames, fields.get? name = none ∨
    ∃ n, fields.get? name = some (.number n)
  level : ∀ n, fields.get? "level" = some (.number n) → FitsInt32 (towardZero n.value)

/-- A field that is not of its kind, with what it should have been. A level beyond 32 bits is a
number. -/
inductive Offends (fields : Fields Json.Value) : String → Expected → Prop where
  | text (name : String) (value : Json.Value) (hname : name ∈ textNames)
      (hvalue : fields.get? name = some value) (hother : ∀ s, value ≠ .string s) :
      Offends fields name .text
  | number (name : String) (value : Json.Value) (hname : name ∈ numberNames)
      (hvalue : fields.get? name = some value) (hother : ∀ n, value ≠ .number n) :
      Offends fields name .number
  | level (n : Json.Number) (hvalue : fields.get? "level" = some (.number n))
      (hlarge : ¬ FitsInt32 (towardZero n.value)) : Offends fields "level" .int32

/-- The offence whose name is the smallest by its octets. -/
structure FirstOffence (fields : Fields Json.Value) (name : String) (expected : Expected) :
    Prop where
  offends : Offends fields name expected
  first : ∀ other expected', Offends fields other expected' →
    Bytes.ofString name ≤ Bytes.ofString other

/-- What a text field is read as: the text that is given, or none. -/
def IsText (fields : Fields Json.Value) (name : String) (s : String) : Prop :=
  fields.get? name = some (.string s) ∨ fields.get? name = none ∧ s = ""

/-- What a number field is read as. -/
def IsNumber (fields : Fields Json.Value) (name : String) (given : Json.Number → Prop)
    (missing : Prop) : Prop :=
  (∃ n, fields.get? name = some (.number n) ∧ given n) ∨ fields.get? name = none ∧ missing

/-- The message that an object stands for. -/
structure Holds (fields : Fields Json.Value) (message : Message) : Prop where
  version : IsText fields "version" message.version
  host : IsText fields "host" message.host
  shortMessage : IsText fields "short_message" message.shortMessage
  fullMessage : IsText fields "full_message" message.fullMessage
  facility : IsText fields "facility" message.facility
  file : IsText fields "file" message.file
  timestamp : IsNumber fields "timestamp"
    (fun n ↦ message.timestamp = n.toBinary64 ∧ message.timestamp.IsNearest n.value)
    (message.timestamp = .zero false)
  level : IsNumber fields "level" (fun n ↦ message.level.toInt = towardZero n.value)
    (message.level = 0)
  line : IsNumber fields "line" (fun n ↦ message.line.toInt = intoInt64 (towardZero n.value))
    (message.line = 0)
  extra : ∀ name, message.extra.get? name =
    if isExtensionName name then fields.get? name else none

/-! ### One field -/

section Fields

variable {fields : Fields Json.Value} {name : String}

theorem bind_eq_ok_iff {α β ε : Type} {result : Except ε α} {next : α → Except ε β} {b : β} :
    result >>= next = .ok b ↔ ∃ a, result = .ok a ∧ next a = .ok b := by
  cases result with
  | ok a => simp [bind, Except.bind]
  | error fault => simp [bind, Except.bind]

theorem eq_string_iff {value : Json.Value} {s : String} :
    value = .string s ↔ value.tree = .string s :=
  ⟨congrArg Json.Value.tree, fun htree ↦ by cases value; cases htree; rfl⟩

theorem eq_number_iff {value : Json.Value} {n : Json.Number} :
    value = .number n ↔ value.tree = .number n :=
  ⟨congrArg Json.Value.tree, fun htree ↦ by cases value; cases htree; rfl⟩

theorem textField_eq_ok_iff {s : String} :
    textField fields name = .ok s ↔ IsText fields name s := by
  unfold textField IsText
  cases hfound : fields.get? name with
  | none => simp [eq_comm]
  | some value =>
    obtain ⟨tree, hcanonical⟩ := value
    cases tree <;> simp [eq_string_iff]

/-- The number that a field is, if the field is there. -/
theorem numberField_eq_ok_iff {n? : Option Json.Number} :
    numberField fields name = .ok n? ↔ fields.get? name = n?.map .number := by
  unfold numberField
  cases hfound : fields.get? name with
  | none => cases n? <;> simp
  | some value =>
    obtain ⟨tree, hcanonical⟩ := value
    cases tree <;> cases n? <;> simp [eq_number_iff]

theorem integerField_eq_ok_iff {i : Int64} : integerField fields name = .ok i ↔
    IsNumber fields name (fun n ↦ i.toInt = intoInt64 (towardZero n.value)) (i = 0) := by
  unfold integerField IsNumber
  rw [bind_eq_ok_iff]
  constructor
  · rintro ⟨n?, hfield, hinteger⟩
    rw [numberField_eq_ok_iff] at hfield
    cases hinteger
    cases n? with
    | none => exact .inr ⟨hfield, rfl⟩
    | some n => exact .inl ⟨n, hfield, n.toInt_toInt64⟩
  · rintro (⟨n, hfield, hinteger⟩ | ⟨hfield, rfl⟩)
    · refine ⟨some n, numberField_eq_ok_iff.mpr hfield, ?_⟩
      rw [← n.toInt_toInt64, Int64.toInt_inj] at hinteger
      rw [hinteger]
      rfl
    · exact ⟨none, numberField_eq_ok_iff.mpr hfield, rfl⟩

/-- The check of the level: 64 bits are cut to 32 just if that keeps the number. -/
theorem narrow_eq_ok_iff {i : Int64} {level : Int32} {fault : LayoutFault} :
    (if -2147483648 ≤ i.toInt ∧ i.toInt < 2147483648 then pure i.toInt32 else throw fault :
      Except LayoutFault Int32) = .ok level ↔ level.toInt = i.toInt := by
  have hlow := level.le_toInt
  have hhigh := level.toInt_lt
  split
  · next hrange =>
    have hsame : i.toInt32.toInt = i.toInt := by
      rw [Int64.toInt_toInt32]
      exact Int.bmod_eq_of_le (by omega) (by omega)
    rw [← hsame, Int32.toInt_inj, eq_comm (a := level)]
    exact ⟨Except.ok.inj, congrArg Except.ok⟩
  · next hrange =>
    constructor
    · intro hthrown
      cases hthrown
    · intro hsame
      omega

/-- Moving a number into 64 bits first does not bring it into 32 bits. -/
theorem toInt_eq_intoInt64_iff {level : Int32} {z : ℤ} :
    level.toInt = intoInt64 z ↔ level.toInt = z := by
  have hlow := level.le_toInt
  have hhigh := level.toInt_lt
  unfold intoInt64
  omega

theorem levelField_eq_ok_iff {level : Int32} : levelField fields = .ok level ↔
    IsNumber fields "level" (fun n ↦ level.toInt = towardZero n.value) (level = 0) := by
  unfold levelField
  simp only [bind_eq_ok_iff, narrow_eq_ok_iff]
  constructor
  · rintro ⟨i, hinteger, hlevel⟩
    rcases integerField_eq_ok_iff.mp hinteger with ⟨n, hfield, hn⟩ | ⟨hfield, rfl⟩
    · exact .inl ⟨n, hfield, toInt_eq_intoInt64_iff.mp (hlevel.trans hn)⟩
    · exact .inr ⟨hfield, Int32.toInt_inj.mp hlevel⟩
  · rintro (⟨n, hfield, hlevel⟩ | ⟨hfield, rfl⟩)
    · have hinteger : integerField fields "level" = .ok n.toInt64 :=
        integerField_eq_ok_iff.mpr (.inl ⟨n, hfield, n.toInt_toInt64⟩)
      exact ⟨n.toInt64, hinteger,
        (toInt_eq_intoInt64_iff.mpr hlevel).trans n.toInt_toInt64.symm⟩
    · exact ⟨0, integerField_eq_ok_iff.mpr (.inr ⟨hfield, rfl⟩), rfl⟩

end Fields

/-! ### Whole objects -/

section Objects

variable {fields : Fields Json.Value} {message : Message}

theorem holds_of_ofFields (h : ofFields fields = .ok message) : Holds fields message := by
  unfold ofFields at h
  obtain ⟨facility, hfacility, h⟩ := bind_eq_ok_iff.mp h
  obtain ⟨file, hfile, h⟩ := bind_eq_ok_iff.mp h
  obtain ⟨fullMessage, hfullMessage, h⟩ := bind_eq_ok_iff.mp h
  obtain ⟨host, hhost, h⟩ := bind_eq_ok_iff.mp h
  obtain ⟨level, hlevel, h⟩ := bind_eq_ok_iff.mp h
  obtain ⟨line, hline, h⟩ := bind_eq_ok_iff.mp h
  obtain ⟨shortMessage, hshortMessage, h⟩ := bind_eq_ok_iff.mp h
  obtain ⟨timestamp, htimestamp, h⟩ := bind_eq_ok_iff.mp h
  obtain ⟨version, hversion, h⟩ := bind_eq_ok_iff.mp h
  cases h
  constructor
  case version => exact textField_eq_ok_iff.mp hversion
  case host => exact textField_eq_ok_iff.mp hhost
  case shortMessage => exact textField_eq_ok_iff.mp hshortMessage
  case fullMessage => exact textField_eq_ok_iff.mp hfullMessage
  case facility => exact textField_eq_ok_iff.mp hfacility
  case file => exact textField_eq_ok_iff.mp hfile
  case timestamp =>
    have hfield := numberField_eq_ok_iff.mp htimestamp
    cases timestamp with
    | none => exact .inr ⟨hfield, rfl⟩
    | some n => exact .inl ⟨n, hfield, rfl, n.isNearest_toBinary64⟩
  case level => exact levelField_eq_ok_iff.mp hlevel
  case line => exact integerField_eq_ok_iff.mp hline
  case extra => exact fun name ↦ Fields.get?_filter isExtensionName fields name

theorem ofFields_of_holds (h : Holds fields message) : ofFields fields = .ok message := by
  have hextra : message.extra = fields.filter isExtensionName :=
    Fields.ext_get? fun name ↦ (h.extra name).trans (Fields.get?_filter _ _ _).symm
  obtain ⟨timestamp, htimestamp, hfloat⟩ : ∃ n?, numberField fields "timestamp" = .ok n? ∧
      message.timestamp = (n?.map Json.Number.toBinary64).getD (.zero false) := by
    rcases h.timestamp with ⟨n, hfield, hfloat, -⟩ | ⟨hfield, hfloat⟩
    · exact ⟨some n, numberField_eq_ok_iff.mpr hfield, hfloat⟩
    · exact ⟨none, numberField_eq_ok_iff.mpr hfield, hfloat⟩
  unfold ofFields
  rw [textField_eq_ok_iff.mpr h.facility, textField_eq_ok_iff.mpr h.file,
    textField_eq_ok_iff.mpr h.fullMessage, textField_eq_ok_iff.mpr h.host,
    levelField_eq_ok_iff.mpr h.level, integerField_eq_ok_iff.mpr h.line,
    textField_eq_ok_iff.mpr h.shortMessage, htimestamp, textField_eq_ok_iff.mpr h.version]
  cases message
  cases hextra
  cases hfloat
  rfl

theorem ofFields_eq_ok_iff : ofFields fields = .ok message ↔ Holds fields message :=
  ⟨holds_of_ofFields, ofFields_of_holds⟩

end Objects

/-! ### Offences -/

section Offences

variable {fields : Fields Json.Value} {name : String} {expected : Expected}

theorem mem_layout_iff : (name, expected) ∈ layout ↔
    match expected with
    | .text => name ∈ textNames
    | .number => name ∈ numberNames ∧ name ≠ "level"
    | .int32 => name = "level" := by
  cases expected with
  | text =>
    simp [layout, textNames]
    tauto
  | number =>
    simp only [layout, numberNames, List.mem_cons, Prod.mk.injEq, List.not_mem_nil, or_false,
      reduceCtorEq, and_false, and_true, false_or]
    constructor
    · rintro (rfl | rfl) <;> decide
    · rintro ⟨rfl | rfl | rfl, hlevel⟩ <;> simp_all
  | int32 => simp [layout]

theorem missedBy_text_eq_some_iff {value : Json.Value} {reported : Expected} :
    Expected.text.missedBy value.tree = some reported ↔
      reported = .text ∧ ∀ s, value ≠ .string s := by
  obtain ⟨tree, hcanonical⟩ := value
  cases tree <;> simp [Expected.missedBy, eq_string_iff, eq_comm]

theorem missedBy_number_eq_some_iff {value : Json.Value} {reported : Expected} :
    Expected.number.missedBy value.tree = some reported ↔
      reported = .number ∧ ∀ n, value ≠ .number n := by
  obtain ⟨tree, hcanonical⟩ := value
  cases tree <;> simp [Expected.missedBy, eq_number_iff, eq_comm]

/-- The number is in range after it has been moved into 64 bits just if it is so before. -/
theorem fitsInt32_iff (n : Json.Number) : FitsInt32 (towardZero n.value) ↔
    -2147483648 ≤ n.toInt64.toInt ∧ n.toInt64.toInt < 2147483648 := by
  rw [n.toInt_toInt64, intoInt64, FitsInt32]
  omega

theorem missedBy_int32_eq_some_iff {value : Json.Value} {reported : Expected} :
    Expected.int32.missedBy value.tree = some reported ↔
      (reported = .number ∧ ∀ n, value ≠ .number n) ∨
        reported = .int32 ∧ ∃ n, value = .number n ∧ ¬ FitsInt32 (towardZero n.value) := by
  obtain ⟨tree, hcanonical⟩ := value
  cases tree with
  | number n => simp [Expected.missedBy, eq_number_iff, eq_comm, fitsInt32_iff, and_comm]
  | _ => simp [Expected.missedBy, eq_number_iff, eq_comm]

theorem offends_of_misfit (h : Misfit fields name expected) : Offends fields name expected := by
  obtain ⟨value, intended, hvalue, hentry, hmissed⟩ := h
  rw [mem_layout_iff] at hentry
  cases intended with
  | text =>
    obtain ⟨rfl, hother⟩ := missedBy_text_eq_some_iff.mp hmissed
    exact .text name value hentry hvalue hother
  | number =>
    obtain ⟨rfl, hother⟩ := missedBy_number_eq_some_iff.mp hmissed
    exact .number name value hentry.1 hvalue hother
  | int32 =>
    cases hentry
    rcases missedBy_int32_eq_some_iff.mp hmissed with ⟨rfl, hother⟩ | ⟨rfl, n, rfl, hlarge⟩
    · exact .number "level" value (by decide) hvalue hother
    · exact .level n hvalue hlarge

theorem misfit_of_offends (h : Offends fields name expected) : Misfit fields name expected := by
  cases h with
  | text name value hname hvalue hother =>
    exact ⟨value, .text, hvalue, mem_layout_iff.mpr hname,
      missedBy_text_eq_some_iff.mpr ⟨rfl, hother⟩⟩
  | number name value hname hvalue hother =>
    by_cases hlevel : name = "level"
    · exact ⟨value, .int32, hvalue, mem_layout_iff.mpr hlevel,
        missedBy_int32_eq_some_iff.mpr (.inl ⟨rfl, hother⟩)⟩
    · exact ⟨value, .number, hvalue, mem_layout_iff.mpr ⟨hname, hlevel⟩,
        missedBy_number_eq_some_iff.mpr ⟨rfl, hother⟩⟩
  | level n hvalue hlarge =>
    exact ⟨.number n, .int32, hvalue, mem_layout_iff.mpr rfl,
      missedBy_int32_eq_some_iff.mpr (.inr ⟨rfl, n, rfl, hlarge⟩)⟩

theorem mem_fixedNames_of_offends (h : Offends fields name expected) : name ∈ fixedNames := by
  have htexts : textNames ⊆ fixedNames := by decide
  have hnumbers : numberNames ⊆ fixedNames := by decide
  cases h with
  | text name value hname => exact htexts hname
  | number name value hname => exact hnumbers hname
  | level => exact hnumbers (by decide)

theorem octets_le_iff : ∀ first ∈ fixedNames, ∀ second ∈ fixedNames,
    first ≤ second ↔ Bytes.ofString first ≤ Bytes.ofString second := by
  decide

theorem firstMisfit_iff_firstOffence :
    FirstMisfit fields name expected ↔ FirstOffence fields name expected := by
  constructor
  · rintro ⟨hfirst, hleast⟩
    have hoffends := offends_of_misfit hfirst
    refine ⟨hoffends, fun other expected' hother ↦ ?_⟩
    exact (octets_le_iff name (mem_fixedNames_of_offends hoffends) other
      (mem_fixedNames_of_offends hother)).mp (hleast other expected' (misfit_of_offends hother))
  · rintro ⟨hoffends, hleast⟩
    refine ⟨misfit_of_offends hoffends, fun other expected' hmisfit ↦ ?_⟩
    have hother := offends_of_misfit hmisfit
    exact (octets_le_iff name (mem_fixedNames_of_offends hoffends) other
      (mem_fixedNames_of_offends hother)).mpr (hleast other expected' hother)

theorem ofFields_eq_error_iff_firstOffence {fault : LayoutFault} :
    ofFields fields = .error fault ↔
      ∃ name expected, fault = .wrongType name expected ∧ FirstOffence fields name expected := by
  simp only [ofFields_eq_error_iff, firstMisfit_iff_firstOffence]

theorem typed_iff_forall_not_offends :
    Typed fields ↔ ∀ name expected, ¬ Offends fields name expected := by
  constructor
  · rintro htyped name expected (⟨_, value, hname, hvalue, hother⟩ |
      ⟨_, value, hname, hvalue, hother⟩ | ⟨n, hvalue, hlarge⟩)
    · rcases htyped.text name hname with habsent | ⟨s, hs⟩
      · cases hvalue.symm.trans habsent
      · exact hother s (Option.some.inj (hvalue.symm.trans hs))
    · rcases htyped.number name hname with habsent | ⟨n, hn⟩
      · cases hvalue.symm.trans habsent
      · exact hother n (Option.some.inj (hvalue.symm.trans hn))
    · exact hlarge (htyped.level n hvalue)
  · intro hnone
    refine ⟨fun name hname ↦ ?_, fun name hname ↦ ?_, fun n hvalue ↦ ?_⟩
    · by_contra! hwrong
      obtain ⟨value, hvalue⟩ := Option.ne_none_iff_exists'.mp hwrong.1
      exact hnone name .text (.text name value hname hvalue fun s hs ↦
        hwrong.2 s (hs ▸ hvalue))
    · by_contra! hwrong
      obtain ⟨value, hvalue⟩ := Option.ne_none_iff_exists'.mp hwrong.1
      exact hnone name .number (.number name value hname hvalue fun n hn ↦
        hwrong.2 n (hn ▸ hvalue))
    · by_contra hlarge
      exact hnone "level" .int32 (.level n hvalue hlarge)

theorem not_misfit_of_ofFields {message : Message} (h : ofFields fields = .ok message) :
    ¬ Misfit fields name expected := by
  intro hmisfit
  obtain ⟨other, expected', hfirst⟩ := hmisfit.exists_first
  have hrefused := ofFields_eq_error_iff.mpr ⟨other, expected', rfl, hfirst⟩
  cases h.symm.trans hrefused

/-- An object is read as some message just if it is typed. -/
theorem exists_ofFields_eq_ok_iff : (∃ message, ofFields fields = .ok message) ↔ Typed fields := by
  rw [typed_iff_forall_not_offends]
  constructor
  · rintro ⟨message, hread⟩ name expected hoffends
    exact not_misfit_of_ofFields hread (misfit_of_offends hoffends)
  · intro hnone
    cases hread : ofFields fields with
    | ok message => exact ⟨message, rfl⟩
    | error fault =>
      obtain ⟨name, expected, -, hfirst⟩ := ofFields_eq_error_iff.mp hread
      exact absurd (offends_of_misfit hfirst.misfit) (hnone name expected)

end Offences

end GelfCourier.Message
