import GelfCourier.Proofs.Message.Layout

/-!
The two ways of reading a message agree. One reads the whole text as a value first, the other
decides as early as it can; they tell the faults of a text that has several in a different order,
and still accept the same texts, read the same messages in them, and say the same of every object
that is complete.
-/

set_option autoImplicit false

namespace GelfCourier

namespace Json

variable {s : Bytes}

theorem Value.read_of_readStart {value : Value} {rest : Bytes}
    (hstart : Value.readStart s = .ok (value, rest)) :
    Value.read s = (endOfText rest).map fun _ ↦ value := by
  rw [Value.read, hstart]
  cases hend : endOfText rest <;> simp [hend, bind, Except.bind, pure, Except.pure, Except.map]

theorem Value.read_of_fault {fault : Fault} (hstart : Value.readStart s = .error fault) :
    Value.read s = .error fault := by
  rw [Value.read, hstart]
  rfl

/-- What begins with an opening bracket is an array, if it is read at all. -/
theorem valueAt_openBracket {turns : Nat} {element : Option (Bytes → Reading Tree)}
    {rest : Bytes} {tree : Tree} (h : valueAt turns element (0x5b :: s) = .ok (tree, rest)) :
    ∃ list, tree = .array list := by
  cases element with
  | none => simp [valueAt, isDigit] at h
  | some element =>
    have hitems : valueAt turns (some element) (0x5b :: s) =
        (items element turns [] s).map fun read ↦ (.array read.1, read.2) := rfl
    rw [hitems] at h
    obtain ⟨read, -, hsame⟩ := map_ok h
    exact ⟨read.1, (congrArg Prod.fst hsame).symm⟩

theorem Value.fields?_of_openBracket {tail rest : Bytes} {value : Value}
    (hbracket : skipSpace s = 0x5b :: tail) (hstart : Value.readStart s = .ok (value, rest)) :
    value.fields? = none := by
  unfold Value.readStart at hstart
  split at hstart
  · cases hstart
  · next tree after hvalue =>
    cases hstart
    rw [nestingLimit, Json.value, hbracket] at hvalue
    obtain ⟨list, rfl⟩ := valueAt_openBracket hvalue
    rfl

end Json

namespace Message

variable {s : Bytes}

/-- No text that begins with an opening bracket is a message. -/
theorem read_of_openBracket {tail : Bytes} (hbracket : Json.skipSpace s = 0x5b :: tail)
    (message : Message) : read s ≠ .ok message := by
  intro hread
  unfold read at hread
  cases hstart : Json.Value.readStart s with
  | error fault =>
    rw [Json.Value.read_of_fault hstart] at hread
    cases hread
  | ok start =>
    obtain ⟨value, rest⟩ := start
    have hnone := Json.Value.fields?_of_openBracket hbracket hstart
    rw [Json.Value.read_of_readStart hstart] at hread
    cases hend : Json.endOfText rest <;> simp [hend, Except.map, ofValue, hnone] at hread

/-- Where the text does not begin with a bracket, both read a value first. They differ in what they
look at next: the layout of the value, or what follows it. -/
theorem readDirect_eq_ok_iff (message : Message) :
    readDirect s = .ok message ↔ read s = .ok message := by
  unfold readDirect
  split
  · next tail hbracket => simp [read_of_openBracket hbracket message]
  · unfold read
    cases hstart : Json.Value.readStart s with
    | error fault => simp [Json.Value.read_of_fault hstart]
    | ok start =>
      obtain ⟨value, rest⟩ := start
      rw [Json.Value.read_of_readStart hstart]
      cases hvalue : ofValue value <;> cases hend : Json.endOfText rest <;>
        simp [hvalue, hend, Except.map]

/-- A complete object is judged by its fields alone. -/
theorem read_object {value : Json.Value} {fields : Fields Json.Value}
    (hread : Json.Value.read s = .ok value) (hfields : value.fields? = some fields) :
    read s = ofFields fields ∧ readDirect s = ofFields fields := by
  refine ⟨by simp only [read, hread, ofValue_eq hfields], ?_⟩
  cases hstart : Json.Value.readStart s with
  | error fault =>
    rw [Json.Value.read_of_fault hstart] at hread
    cases hread
  | ok start =>
    obtain ⟨first, rest⟩ := start
    rw [Json.Value.read_of_readStart hstart] at hread
    obtain ⟨done, hend, rfl⟩ := Json.map_ok hread
    unfold readDirect
    split
    · next tail hbracket =>
      rw [Json.Value.fields?_of_openBracket hbracket hstart] at hfields
      cases hfields
    · rw [hstart]
      cases hvalue : ofFields fields <;> simp [ofValue_eq hfields, hvalue, hend]

/-- What the two ways of reading a text come to. -/
structure ReadAlike (s : Bytes) : Prop where
  /-- They accept the same texts, and read the same message. -/
  accepted : ∀ message, readDirect s = .ok message ↔ read s = .ok message
  /-- A complete object is the same to both. -/
  object : ∀ value fields, Json.Value.read s = .ok value → value.fields? = some fields →
    readDirect s = read s
  /-- Both report of an object the field of the smallest name that is not what it has to be. -/
  reported : ∀ value fields, Json.Value.read s = .ok value → value.fields? = some fields →
    ∀ name expected, Misfit fields name expected → ∃ first expected',
      FirstMisfit fields first expected' ∧ read s = .error (.wrongType first expected') ∧
      readDirect s = .error (.wrongType first expected')

/-- Every text is accepted in both ways or in neither, and both say the same of an object. -/
theorem readAlike (s : Bytes) : ReadAlike s where
  accepted := readDirect_eq_ok_iff
  object := by
    intro value fields hread hfields
    obtain ⟨hwhole, hdirect⟩ := read_object hread hfields
    exact hdirect.trans hwhole.symm
  reported := by
    intro value fields hread hfields name expected hmisfit
    obtain ⟨hwhole, hdirect⟩ := read_object hread hfields
    obtain ⟨first, expected', hfirst⟩ := hmisfit.exists_first
    have hfault := ofFields_eq_error_iff.mpr ⟨first, expected', rfl, hfirst⟩
    exact ⟨first, expected', hfirst, hwhole.trans hfault, hdirect.trans hfault⟩

/-- Of an object with a wrong host and something behind it, one way tells what stands behind it and
the other tells the host. -/
example : fault? (read (Bytes.ofString "\x7b\"host\":1\x7d.")) = some (.json .malformed) ∧
    fault? (readDirect (Bytes.ofString "\x7b\"host\":1\x7d.")) =
      some (.wrongType "host" .text) := by
  decide +kernel

end Message

end GelfCourier
