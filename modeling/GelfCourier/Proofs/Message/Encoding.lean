import GelfCourier.Proofs.Json.Nesting
import GelfCourier.Proofs.Message.RoundTrip
import GelfCourier.Proofs.Number.Rounding

/-!
Messages that come from log calls survive being written and read back whole. Every extension of such
a message has an underscore before its name, and its timestamp is finite, so only the nesting of its
values can keep it from being read.
-/

set_option autoImplicit false

namespace GelfCourier

/-- The milliseconds fit 64 bits. -/
def Instant.InRange (time : Instant) : Prop :=
  -9223372036854775808 ≤ time.milliseconds ∧ time.milliseconds < 9223372036854775808

instance (time : Instant) : Decidable time.InRange := by
  unfold Instant.InRange
  infer_instance

theorem Instant.InRange.isFinite {time : Instant} (h : time.InRange) :
    time.toBinary64.IsFinite := by
  obtain ⟨hlow, hhigh⟩ := h
  exact (Binary64.isFinite_ofInt (by omega)).divNat (by decide)

namespace Encoder

/-- Nothing is held under a name without an underscore. -/
def AllExtensions (extra : Fields Json.Value) : Prop :=
  ∀ name, Message.isExtensionName name = false → extra.get? name = none

theorem isExtensionName_extensionName (name : String) :
    Message.isExtensionName (Message.extensionName name) = true := by
  simp [Message.isExtensionName, Message.extensionName]

theorem AllExtensions.insert {extra : Fields Json.Value} (h : AllExtensions extra)
    (name : String) (value : Json.Value) :
    AllExtensions (extra.insert (Message.extensionName name) value) := by
  intro other hother
  have hne : other ≠ Message.extensionName name := by
    rintro rfl
    rw [isExtensionName_extensionName] at hother
    cases hother
  rw [Fields.get?_insert_of_ne _ hne, h other hother]

theorem AllExtensions.empty : AllExtensions .empty := fun _ _ ↦ rfl

theorem AllExtensions.addStatic (static : Fields Json.Value) {extra : Fields Json.Value}
    (h : AllExtensions extra) : AllExtensions (addStatic static extra) := by
  unfold Encoder.addStatic
  generalize static.entries = entries
  induction entries generalizing extra with
  | nil => exact h
  | cons entry rest ih => exact ih (h.insert entry.1 entry.2)

theorem AllExtensions.addCaller (caller : Option Caller) {extra : Fields Json.Value}
    (h : AllExtensions extra) : AllExtensions (addCaller caller extra) := by
  cases caller with
  | none => exact h
  | some caller => exact ((h.insert _ _).insert _ _).insert _ _

theorem AllExtensions.addField (entry : String × FieldValue) {extra : Fields Json.Value}
    (h : AllExtensions extra) : AllExtensions (addField extra entry) := by
  have hvalue := h.insert entry.1 entry.2.toValue
  unfold Encoder.addField
  split
  · split
    · exact hvalue.insert _ _
    · exact hvalue
  · exact hvalue

theorem allExtensions_extraFields (encoder : Encoder) (record : Record) :
    AllExtensions (encoder.extraFields record) := by
  unfold extraFields
  have hstart := (AllExtensions.empty.addStatic encoder.extra).addCaller record.caller
  generalize record.fields.entries = entries
  generalize addCaller record.caller (addStatic encoder.extra .empty) = extra at hstart ⊢
  induction entries generalizing extra with
  | nil => exact hstart
  | cons entry rest ih => exact ih _ (hstart.addField entry)

theorem AllExtensions.filter_eq {extra : Fields Json.Value} (h : AllExtensions extra) :
    extra.filter Message.isExtensionName = extra := by
  refine Fields.ext_get? fun name ↦ ?_
  rw [Fields.get?_filter]
  split
  · rfl
  · next hname => exact (h name (by simpa using hname)).symm

end Encoder

namespace Message

/-- An extension that is written nests more than 126 deep. -/
def NestsTooDeep (message : Message) : Prop :=
  ∃ name value, name ∉ fixedNames ∧ message.extra.get? name = some value ∧
    126 < value.tree.nesting

theorem lt_membersNesting_iff {members : List (String × Json.Tree)} {depth : Nat} :
    depth < Json.Tree.membersNesting members ↔
      ∃ member ∈ members, depth < member.2.nesting := by
  rw [← Nat.not_le, Json.Tree.membersNesting_le_iff]
  simp

theorem nestsTooDeep_iff (message : Message) :
    message.NestsTooDeep ↔ 126 < message.extraNesting := by
  rw [extraNesting, lt_membersNesting_iff]
  constructor
  · rintro ⟨name, value, hname, hvalue, hdeep⟩
    have hlookup := lookup_extraMembers message name
    rw [if_neg (by simpa using hname), hvalue] at hlookup
    exact ⟨_, Fields.mem_of_lookup_eq_some hlookup, hdeep⟩
  · rintro ⟨member, hmember, hdeep⟩
    obtain ⟨entry, hentry, rfl⟩ := List.mem_map.mp hmember
    obtain ⟨hstored, hkept⟩ := List.mem_filter.mp hentry
    exact ⟨entry.1, entry.2, by simpa using hkept,
      Fields.get?_of_mem hstored, hdeep⟩

/-- A message whose floats read back is refused as JSON where a written extension nests too deep,
and for its timestamp where that is not finite. Every other message keeps its fixed fields, and of the
extensions those whose names have an underscore. No name is written twice, and a message that comes
from a log call keeps everything. -/
theorem read_toBytes (message : Message) (hreads : message.FloatsReadBack) :
    (message.NestsTooDeep → Message.read message.toBytes = .error (.json .malformed)) ∧
      (¬ message.NestsTooDeep → ¬ message.timestamp.IsFinite →
        Message.read message.toBytes = .error (.wrongType "timestamp" .number)) ∧
      (¬ message.NestsTooDeep → message.timestamp.IsFinite →
        Message.read message.toBytes =
          .ok { message with extra := message.extra.filter isExtensionName }) ∧
      ((message.fixedMembers ++ message.extraMembers).map Prod.fst).Nodup ∧
      ∀ (encoder : Encoder) (record : Record), message = encoder.encode record →
        record.time.InRange → ¬ message.NestsTooDeep →
          Message.read message.toBytes = .ok message := by
  have hkept (hflat : ¬ message.NestsTooDeep) (hfinite : message.timestamp.IsFinite) :
      Message.read message.toBytes =
        .ok { message with extra := message.extra.filter isExtensionName } := by
    rw [nestsTooDeep_iff, Nat.not_lt] at hflat
    rw [read_toBytes_of_flat hreads hflat, if_pos hfinite]
  refine ⟨fun hdeep ↦ ?_, fun hflat hfinite ↦ ?_, hkept, names_nodup message, ?_⟩
  · exact read_toBytes_of_deep hreads ((nestsTooDeep_iff message).mp hdeep)
  · rw [nestsTooDeep_iff, Nat.not_lt] at hflat
    rw [read_toBytes_of_flat hreads hflat, if_neg hfinite]
  · rintro encoder record rfl hrange hflat
    rw [hkept hflat hrange.isFinite]
    have hextra := (encoder.allExtensions_extraFields record).filter_eq
    exact congrArg (fun extra ↦ Except.ok { encoder.encode record with extra }) hextra

/-- A load average, next to a name that belongs to a fixed field and one without an underscore. -/
def crowded : Message where
  host := "db-1"
  shortMessage := "slow \"query\""
  timestamp := .ofRatio false 3401 2
  extra := .ofList [("_load", .float (.ofRatio false 5 4)), ("host", .string "db-2"),
    ("plain", .bool true)]

def backlogCall : Record where
  time := ⟨1700000000, 123000000⟩
  level := .warn
  message := "queue backlog\n42 items"
  fields := .ofList [("shard", .plain (.integer 3)), ("load", .plain (.float (.ofRatio false 5 4)))]

def workerEncoder : Encoder := { host := "worker-1" }

theorem read_toBytes_crowded :
    (crowded.FloatsReadBack ∧ ¬ crowded.NestsTooDeep ∧ Message.read crowded.toBytes =
      .ok { crowded with extra := .ofList [("_load", .float (.ofRatio false 5 4))] }) ∧
    (workerEncoder.encode backlogCall).FloatsReadBack ∧ backlogCall.time.InRange ∧
      ¬ (workerEncoder.encode backlogCall).NestsTooDeep ∧
      Message.read (workerEncoder.encode backlogCall).toBytes =
        .ok (workerEncoder.encode backlogCall) := by
  have hreads {message : Message} (hall : ∀ n ∈ message.toTree.numbers, n.ReadsBack) :
      message.FloatsReadBack := fun x finite hx ↦ hall _ hx
  have hcrowded : crowded.FloatsReadBack := hreads (by decide +kernel)
  have hcrowdedFlat : ¬ crowded.NestsTooDeep := by
    rw [nestsTooDeep_iff]
    decide +kernel
  have hcall : (workerEncoder.encode backlogCall).FloatsReadBack := hreads (by decide +kernel)
  have hcallFlat : ¬ (workerEncoder.encode backlogCall).NestsTooDeep := by
    rw [nestsTooDeep_iff]
    decide +kernel
  have hrange : backlogCall.time.InRange := by decide
  refine ⟨⟨hcrowded, hcrowdedFlat, ?_⟩, hcall, hrange, hcallFlat, ?_⟩
  · exact (read_toBytes crowded hcrowded).2.2.1 hcrowdedFlat (by decide +kernel)
  · exact (read_toBytes _ hcall).2.2.2.2 workerEncoder backlogCall rfl hrange hcallFlat

end Message

end GelfCourier
