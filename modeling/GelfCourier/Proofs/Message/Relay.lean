import GelfCourier.Payload
import GelfCourier.Proofs.Gzip.RoundTrip
import GelfCourier.Proofs.Json.Nesting
import GelfCourier.Proofs.Message.Agreement
import GelfCourier.Proofs.Message.Decoding
import GelfCourier.Proofs.Message.RoundTrip

/-!
Messages that are read and passed on. Whatever text a message was read from, it nests no deeper than
a reader goes, its timestamp is finite, and its extensions have an underscore before their names. So
it is read back as it is when it is written again, and the text that is written is one that passing
on leaves alone.
-/

set_option autoImplicit false

namespace GelfCourier

theorem Json.Value.nesting_of_read {s : Bytes} {value : Json.Value}
    (h : Json.Value.read s = .ok value) : value.tree.nesting ≤ Json.nestingLimit := by
  cases hstart : Json.Value.readStart s with
  | error fault =>
    rw [Json.Value.read_of_fault hstart] at h
    cases h
  | ok start =>
    obtain ⟨first, rest⟩ := start
    rw [Json.Value.read_of_readStart hstart] at h
    obtain ⟨-, -, rfl⟩ := Json.map_ok h
    exact Json.Value.nesting_of_readStart hstart

/-- What stands in an object nests one level less than the object. -/
theorem Json.Value.nesting_of_get? {value field : Json.Value} {fields : Fields Json.Value}
    {name : String} (hfields : value.fields? = some fields)
    (hfield : fields.get? name = some field) : field.tree.nesting < value.tree.nesting := by
  obtain ⟨tree, hcanonical⟩ := value
  cases tree with
  | object members =>
    cases hfields
    have hlookup := Json.Value.get?_fieldsOf hcanonical name
    rw [hfield] at hlookup
    have hmember := Fields.mem_of_lookup_eq_some hlookup.symm
    exact Nat.lt_succ_of_le (Json.Tree.membersNesting_le_iff.mp (Nat.le_refl _) _ hmember)
  | _ => cases hfields

theorem Payload.read_pack {message : Message} (effort : Gzip.Effort)
    (h : Message.read message.toBytes = .ok message) :
    Payload.read (Gzip.pack effort message.toBytes) = .ok message := by
  simp only [Payload.read, Gzip.unpack_pack, h]

namespace Message

variable {s : Bytes} {message : Message}

/-! ### What a message is like that has been read -/

/-- The object that a message was read from. -/
theorem exists_holds_of_read (h : read s = .ok message) : ∃ value fields,
    Json.Value.read s = .ok value ∧ value.fields? = some fields ∧ Holds fields message := by
  unfold read at h
  split at h
  · cases h
  · next value hvalue =>
    cases hfields : value.fields? with
    | none => simp [ofValue, hfields] at h
    | some fields =>
      rw [ofValue_eq hfields] at h
      exact ⟨value, fields, hvalue, hfields, ofFields_eq_ok_iff.mp h⟩

theorem Holds.isFinite {fields : Fields Json.Value} (h : Holds fields message) :
    message.timestamp.IsFinite := by
  rcases h.timestamp with ⟨n, -, -, hnearest⟩ | ⟨-, hzero⟩
  · exact hnearest.isFinite
  · rw [hzero]
    trivial

theorem Holds.filter_extra {fields : Fields Json.Value} (h : Holds fields message) :
    message.extra.filter isExtensionName = message.extra := by
  refine Fields.ext_get? fun name ↦ ?_
  rw [Fields.get?_filter, h.extra]
  split <;> rfl

theorem extraNesting_le_of_read (h : read s = .ok message) : message.extraNesting ≤ 126 := by
  obtain ⟨value, fields, hvalue, hfields, hholds⟩ := exists_holds_of_read h
  have hlimit : value.tree.nesting ≤ 127 := Json.Value.nesting_of_read hvalue
  refine Json.Tree.membersNesting_le_iff.mpr fun member hmember ↦ ?_
  obtain ⟨entry, hentry, rfl⟩ := List.mem_map.mp hmember
  have hextra := Fields.get?_of_mem (List.mem_filter.mp hentry).1
  rw [hholds.extra] at hextra
  split at hextra
  · have hinner := Json.Value.nesting_of_get? hfields hextra
    dsimp only
    omega
  · cases hextra

/-! ### Passing on -/

theorem read_toBytes_of_read (h : read s = .ok message) (hreads : message.FloatsReadBack) :
    read message.toBytes = .ok message := by
  obtain ⟨value, fields, -, -, hholds⟩ := exists_holds_of_read h
  rw [read_toBytes_of_flat hreads (extraNesting_le_of_read h), if_pos hholds.isFinite,
    hholds.filter_extra]

/-- Reads a message and writes it again. -/
def relay (s : Bytes) : Except LayoutFault Bytes :=
  (read s).map toBytes

theorem relay_of_read (h : read s = .ok message) : relay s = .ok message.toBytes := by
  rw [relay, h]
  rfl

/-- What becomes of a message that was read from a text and is passed on. -/
structure PassedOn (s : Bytes) (message : Message) : Prop where
  /-- Whoever reads it next reads the same message, as a value first or directly. -/
  reread : read message.toBytes = .ok message ∧ readDirect message.toBytes = .ok message
  /-- The same message is in the payload, however it is packed. -/
  packed : ∀ effort, Payload.read (Gzip.pack effort message.toBytes) = .ok message
  /-- The first relay writes the message, and every further one leaves its text alone. -/
  settled : ∀ t, relay s = .ok t → t = message.toBytes ∧ relay t = .ok t

/-- A message that was read from any text at all survives being passed on, as far as its floats read
back. -/
theorem passedOn_of_read (h : read s = .ok message) (hreads : message.FloatsReadBack) :
    PassedOn s message := by
  have hreread := read_toBytes_of_read h hreads
  constructor
  case reread => exact ⟨hreread, (readDirect_eq_ok_iff message).mpr hreread⟩
  case packed => exact fun effort ↦ Payload.read_pack effort hreread
  case settled =>
    intro t ht
    obtain rfl := Except.ok.inj ((relay_of_read h).symm.trans ht)
    exact ⟨rfl, relay_of_read hreread⟩

/-- Blanks, names in disorder, a name that stands twice and one that means nothing, and numbers that
are written otherwise: a level with places, a whole timestamp, a minus zero. -/
def looseText : Bytes :=
  .ofString (" \x7b \"short_message\" : \"a\", \"plain\":[true],\n \"timestamp\": 3401, " ++
    "\"_n\" : [ 125e-2 , \x7b\"k\":-0\x7d ], \"level\":6.9, \"short_message\":\"b\"\x7d ")

theorem passedOn_of_looseText : ∃ message, read looseText = .ok message ∧
    message.shortMessage = "b" ∧ message.level = 6 ∧ message.FloatsReadBack ∧
      message.toBytes ≠ looseText ∧ PassedOn looseText message := by
  have hseen : (read looseText).toOption.map (fun message ↦
      (message.shortMessage, message.level,
        decide (∀ n ∈ message.toTree.numbers, n.ReadsBack), message.toBytes == looseText)) =
      some ("b", 6, true, false) := by
    decide +kernel
  obtain ⟨message, hsome, hfields⟩ := Option.map_eq_some_iff.mp hseen
  obtain ⟨hshort, hlevel, hnumbers, hother⟩ : message.shortMessage = "b" ∧ message.level = 6 ∧
      (∀ n ∈ message.toTree.numbers, n.ReadsBack) ∧ message.toBytes ≠ looseText := by
    simpa using hfields
  have hreads : message.FloatsReadBack := fun _ _ hx ↦ hnumbers _ hx
  have hread : read looseText = .ok message := by
    cases hresult : read looseText with
    | error fault => simp [hresult, Except.toOption] at hsome
    | ok other => simpa [hresult, Except.toOption] using hsome
  exact ⟨message, hread, hshort, hlevel, hreads, hother, passedOn_of_read hread hreads⟩

end Message

end GelfCourier
