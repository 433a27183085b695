import GelfCourier.Record.Basic
import GelfCourier.Text.Bytes

/-!
Events of an instrumented program, and the record of a log call that each one becomes. The field
named `message` gives the text where it was recorded as text; all other fields keep their names, and
of several with one name the last counts.
-/

set_option autoImplicit false

namespace GelfCourier

inductive EventValue where
  | string (text : String)
  | signed (value : Int64)
  | unsigned (value : UInt64)
  | float (value : Binary64)
  | flag (value : Bool)
  /-- An error, by its own text and those of its causes; only its own is kept. -/
  | failure (text : String) (causes : List String)
  /-- Any other value, by the text that shows it. -/
  | shown (text : String)
  /-- An integer of more than 64 bits, kept by its decimal text. -/
  | wide (value : Int)
  /-- Octets, kept as hexadecimal text. -/
  | octets (bytes : Bytes)

namespace EventValue

/-- Octets in brackets, two digits each. -/
def octetsText (bytes : Bytes) : String :=
  "[" ++ " ".intercalate (bytes.map fun b => Bytes.toHex [b]) ++ "]"

/-- The text of a value that is recorded as text. -/
def text? : EventValue → Option String
  | .string text => some text
  | .shown text => some text
  | .wide value => some (toString value)
  | .octets bytes => some (octetsText bytes)
  | _ => none

def toField : EventValue → FieldValue
  | .string text => .plain (.string text)
  | .signed value => .plain (.integer value.toInt)
  | .unsigned value => .plain (.integer value.toNat)
  | .float value => .plain (.float value)
  | .flag value => .plain (.bool value)
  | .failure text _ => .failure { causes := [text] }
  | .shown text => .plain (.string text)
  | .wide value => .plain (.string (toString value))
  | .octets bytes => .plain (.string (octetsText bytes))

end EventValue

structure Event where
  level : Level
  target : String
  file : Option String := none
  line : Option UInt32 := none
  modulePath : Option String := none
  /-- In the order in which they were recorded. -/
  fields : List (String × EventValue) := []

namespace Event

def messageField : String := "message"

/-- Text and fields gathered from the fields of an event. -/
structure Gathered where
  message : Option String := none
  fields : Fields FieldValue := .empty

def Gathered.add (gathered : Gathered) (field : String × EventValue) : Gathered :=
  match field.2.text? with
  | some text =>
    if field.1 = messageField then { gathered with message := some text }
    else { gathered with fields := gathered.fields.insert field.1 field.2.toField }
  | none => { gathered with fields := gathered.fields.insert field.1 field.2.toField }

def gather (event : Event) : Gathered :=
  event.fields.foldl Gathered.add {}

/-- The place of the event, where both file and line are known. -/
def caller? (event : Event) : Option Caller :=
  match event.file, event.line with
  | some file, some line => some ⟨file, line, event.modulePath.getD ""⟩
  | _, _ => none

def toRecord (event : Event) (time : Instant) : Record where
  time
  level := event.level
  message := event.gather.message.getD ""
  fields := event.gather.fields
  caller := event.caller?

end Event

end GelfCourier
