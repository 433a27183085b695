import GelfCourier.Message.Reading
import GelfCourier.Proofs.Fields.Lookup

/-!
The layout of a message as a table: what each fixed field has to be. Fields are refused just if one
of them does not fit the table, and then the fault is about the first of these in the order of the
names (`ofFields_eq_error_iff`). That the fields are visited in this order is what makes the first
fault met the one of the smallest name.
-/

set_option autoImplicit false

namespace GelfCourier

/-- What is reported of a value that is not what was expected. A level that is no number is reported
as such, and not as a number out of range. -/
def Expected.missedBy : Expected → Json.Tree → Option Expected
  | .text, .string _ => none
  | .text, _ => some .text
  | .number, .number _ => none
  | .number, _ => some .number
  | .int32, .number n =>
    if -2147483648 ≤ n.toInt64.toInt ∧ n.toInt64.toInt < 2147483648 then none else some .int32
  | .int32, _ => some .number

namespace Message

theorem ofValue_eq {value : Json.Value} {fields : Fields Json.Value}
    (hfields : value.fields? = some fields) : ofValue value = ofFields fields := by
  rw [ofValue, hfields]

/-- The fixed fields in ascending order of their names. -/
def layout : List (String × Expected) :=
  [("facility", .text), ("file", .text), ("full_message", .text), ("host", .text),
    ("level", .int32), ("line", .number), ("short_message", .text), ("timestamp", .number),
    ("version", .text)]

/-- A field is there and is not what the layout expects. -/
def Misfit (fields : Fields Json.Value) (name : String) (reported : Expected) : Prop :=
  ∃ value expected, fields.get? name = some value ∧ (name, expected) ∈ layout ∧
    expected.missedBy value.tree = some reported

/-- The misfit of the smallest name. -/
structure FirstMisfit (fields : Fields Json.Value) (name : String) (reported : Expected) :
    Prop where
  misfit : Misfit fields name reported
  first : ∀ other reported', Misfit fields other reported' → name ≤ other

/-- The fault of one field, if it has one. -/
def misfit? (fields : Fields Json.Value) (entry : String × Expected) : Option LayoutFault :=
  (fields.get? entry.1).bind fun value ↦ (entry.2.missedBy value.tree).map (.wrongType entry.1)

/-! ### The faults of a reading -/

/-- The fault of a result, if it is one. -/
def fault? {α : Type} : Except LayoutFault α → Option LayoutFault
  | .ok _ => none
  | .error fault => some fault

section Faults

variable {α β : Type} {fields : Fields Json.Value} {name : String}

theorem fault?_eq_some_iff {result : Except LayoutFault α} {fault : LayoutFault} :
    fault? result = some fault ↔ result = .error fault := by
  cases result <;> simp [fault?]

/-- Where what comes next has one fault, or none, whatever the first step gives, a sequence has the
first fault of the two. -/
theorem fault?_bind {result : Except LayoutFault α} {next : α → Except LayoutFault β}
    {later : Option LayoutFault} (hnext : ∀ a, fault? (next a) = later) :
    fault? (result >>= next) = (fault? result).or later := by
  cases result with
  | ok a => exact hnext a
  | error fault => rfl

theorem fault?_textField : fault? (textField fields name) = misfit? fields (name, .text) := by
  unfold textField misfit?
  cases hfound : fields.get? name with
  | none => rfl
  | some value =>
    obtain ⟨tree, hcanonical⟩ := value
    cases tree <;> rfl

theorem fault?_numberField : fault? (numberField fields name) = misfit? fields (name, .number) := by
  unfold numberField misfit?
  cases hfound : fields.get? name with
  | none => rfl
  | some value =>
    obtain ⟨tree, hcanonical⟩ := value
    cases tree <;> rfl

theorem fault?_integerField :
    fault? (integerField fields name) = misfit? fields (name, .number) := by
  have hseen : fault? (integerField fields name) = (fault? (numberField fields name)).or none :=
    fault?_bind fun _ ↦ rfl
  rw [hseen, fault?_numberField, Option.or_none]

theorem fault?_levelField : fault? (levelField fields) = misfit? fields ("level", .int32) := by
  unfold levelField integerField numberField misfit?
  cases hfound : fields.get? "level" with
  | none => rfl
  | some value =>
    obtain ⟨tree, hcanonical⟩ := value
    cases tree with
    | number n =>
      simp only [Except.bind, bind, pure, Except.pure, Option.map_some, Option.getD_some,
        Option.bind_some, Expected.missedBy]
      split <;> rfl
    | _ => rfl

/-- One more field is visited before the others. -/
theorem fault?_visit {result : Except LayoutFault α} {next : α → Except LayoutFault β}
    {entry : String × Expected} {entries : List (String × Expected)}
    (hfirst : fault? result = misfit? fields entry)
    (hnext : ∀ a, fault? (next a) = entries.findSome? (misfit? fields)) :
    fault? (result >>= next) = (entry :: entries).findSome? (misfit? fields) := by
  rw [fault?_bind hnext, hfirst, List.findSome?_cons]
  cases misfit? fields entry <;> rfl

/-- The fields are visited in the order of the layout, and the first that does not fit is told. -/
theorem fault?_ofFields (fields : Fields Json.Value) :
    fault? (ofFields fields) = layout.findSome? (misfit? fields) :=
  fault?_visit fault?_textField fun _ ↦ fault?_visit fault?_textField fun _ ↦
    fault?_visit fault?_textField fun _ ↦ fault?_visit fault?_textField fun _ ↦
    fault?_visit fault?_levelField fun _ ↦ fault?_visit fault?_integerField fun _ ↦
    fault?_visit fault?_textField fun _ ↦ fault?_visit fault?_numberField fun _ ↦
    fault?_visit fault?_textField fun _ ↦ rfl

end Faults

/-! ### The first misfit -/

theorem layout_ascending : Fields.Ascending layout := by
  unfold Fields.Ascending
  decide

variable {fields : Fields Json.Value} {name : String} {reported : Expected}

theorem misfit?_eq_some_iff {entry : String × Expected} {fault : LayoutFault} :
    misfit? fields entry = some fault ↔ ∃ value reported, fields.get? entry.1 = some value ∧
      entry.2.missedBy value.tree = some reported ∧ fault = .wrongType entry.1 reported := by
  simp only [misfit?, Option.bind_eq_some_iff, Option.map_eq_some_iff, eq_comm (a := fault)]
  constructor
  · rintro ⟨value, hvalue, reported, hmissed, hfault⟩
    exact ⟨value, reported, hvalue, hmissed, hfault⟩
  · rintro ⟨value, reported, hvalue, hmissed, hfault⟩
    exact ⟨value, hvalue, reported, hmissed, hfault⟩

/-- The fault that is found first is about the smallest name of all misfits. -/
theorem firstMisfit_of_findSome? {fault : LayoutFault}
    (hfound : layout.findSome? (misfit? fields) = some fault) :
    ∃ name reported, fault = .wrongType name reported ∧ FirstMisfit fields name reported := by
  obtain ⟨earlier, entry, later, hlayout, hfault, hnone⟩ := List.findSome?_eq_some_iff.mp hfound
  obtain ⟨value, reported, hvalue, hmissed, rfl⟩ := misfit?_eq_some_iff.mp hfault
  have hentry : entry ∈ layout := by
    rw [hlayout]
    exact List.mem_append_right _ List.mem_cons_self
  refine ⟨entry.1, reported, rfl, ⟨value, entry.2, hvalue, hentry, hmissed⟩, ?_⟩
  rintro other reported' ⟨value', expected, hvalue', hother, hmissed'⟩
  have hascending := layout_ascending
  rw [hlayout] at hother hascending
  rcases List.mem_append.mp hother with hearlier | hrest
  · have hfits := hnone _ hearlier
    rw [misfit?_eq_some_iff.mpr ⟨value', reported', hvalue', hmissed', rfl⟩] at hfits
    cases hfits
  · rcases List.mem_cons.mp hrest with hsame | hlater
    · exact hsame ▸ String.le_refl _
    · have hbelow := (List.pairwise_cons.mp (List.pairwise_append.mp hascending).2.1).1 _ hlater
      exact String.not_lt.mp (String.lt_asymm hbelow)

/-- What is reported of a misfit depends on its name alone. -/
theorem Misfit.unique {reported' : Expected} (h : Misfit fields name reported)
    (h' : Misfit fields name reported') : reported = reported' := by
  obtain ⟨value, expected, hvalue, hentry, hmissed⟩ := h
  obtain ⟨value', expected', hvalue', hentry', hmissed'⟩ := h'
  have hsame : some expected = some expected' :=
    (Fields.lookup_of_mem layout_ascending hentry).symm.trans
      (Fields.lookup_of_mem layout_ascending hentry')
  cases hvalue.symm.trans hvalue'
  cases hsame
  exact Option.some.inj (hmissed.symm.trans hmissed')

theorem Misfit.exists_fault (h : Misfit fields name reported) :
    ∃ fault, layout.findSome? (misfit? fields) = some fault := by
  obtain ⟨value, expected, hvalue, hentry, hmissed⟩ := h
  refine Option.ne_none_iff_exists'.mp fun hnone ↦ ?_
  have hfits := List.findSome?_eq_none_iff.mp hnone _ hentry
  rw [misfit?_eq_some_iff.mpr ⟨value, reported, hvalue, hmissed, rfl⟩] at hfits
  cases hfits

theorem findSome?_eq_some_iff {fault : LayoutFault} :
    layout.findSome? (misfit? fields) = some fault ↔
      ∃ name reported, fault = .wrongType name reported ∧ FirstMisfit fields name reported := by
  refine ⟨firstMisfit_of_findSome?, ?_⟩
  rintro ⟨name, reported, rfl, h⟩
  obtain ⟨fault, hfound⟩ := h.misfit.exists_fault
  obtain ⟨other, reported', rfl, hleast⟩ := firstMisfit_of_findSome? hfound
  obtain rfl : name = other :=
    String.le_antisymm (h.first _ _ hleast.misfit) (hleast.first _ _ h.misfit)
  rw [hfound, hleast.misfit.unique h.misfit]

/-- Fields are refused with the first misfit. -/
theorem ofFields_eq_error_iff {fault : LayoutFault} : ofFields fields = .error fault ↔
    ∃ name reported, fault = .wrongType name reported ∧ FirstMisfit fields name reported := by
  rw [← fault?_eq_some_iff, fault?_ofFields, findSome?_eq_some_iff]

/-- Where there is a misfit there is a first one. -/
theorem Misfit.exists_first (h : Misfit fields name reported) :
    ∃ other reported', FirstMisfit fields other reported' := by
  obtain ⟨fault, hfound⟩ := h.exists_fault
  obtain ⟨other, reported', -, hleast⟩ := firstMisfit_of_findSome? hfound
  exact ⟨other, reported', hleast⟩

end Message

end GelfCourier
