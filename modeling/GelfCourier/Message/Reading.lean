import GelfCourier.Json.Reader
import GelfCourier.Message.Basic

/-!
Reading messages back. Missing fields have their defaults, unknown names without an underscore are
ignored, and of several fields of a wrong type the first in the order of the names is reported.
-/

set_option autoImplicit false

namespace GelfCourier

/-- What a fixed field has to be. -/
inductive Expected where
  | text
  | number
  | int32
  deriving DecidableEq, Repr

def Expected.phrase : Expected → String
  | .text => "a string"
  | .number => "a number"
  | .int32 => "a 32-bit integer"

/-- Why octets or a value are not a message. -/
inductive LayoutFault where
  | json (fault : Json.Fault)
  | notAnObject
  | wrongType (field : String) (expected : Expected)
  deriving DecidableEq, Repr

def LayoutFault.message : LayoutFault → String
  | .json .truncated => "invalid JSON: the text ends too early"
  | .json .malformed => "invalid JSON: unexpected input"
  | .notAnObject => "GELF message must be a JSON object"
  | .wrongType field expected => "field `" ++ field ++ "` must be " ++ expected.phrase

namespace Message

def textField (fields : Fields Json.Value) (name : String) : Except LayoutFault String :=
  match fields.get? name with
  | none => .ok ""
  | some ⟨.string s, _⟩ => .ok s
  | some _ => .error (.wrongType name .text)

def numberField (fields : Fields Json.Value) (name : String) :
    Except LayoutFault (Option Json.Number) :=
  match fields.get? name with
  | none => .ok none
  | some ⟨.number n, _⟩ => .ok (some n)
  | some _ => .error (.wrongType name .number)

/-- An integer field: the number cut off after the point and moved into the 64-bit range. -/
def integerField (fields : Fields Json.Value) (name : String) : Except LayoutFault Int64 := do
  let number ← numberField fields name
  return (number.map Json.Number.toInt64).getD 0

def levelField (fields : Fields Json.Value) : Except LayoutFault Int32 := do
  let level ← integerField fields "level"
  if -2147483648 ≤ level.toInt ∧ level.toInt < 2147483648 then return level.toInt32
  else throw (.wrongType "level" .int32)

/-- The fields are visited in ascending order of their names. -/
def ofFields (fields : Fields Json.Value) : Except LayoutFault Message := do
  let facility ← textField fields "facility"
  let file ← textField fields "file"
  let fullMessage ← textField fields "full_message"
  let host ← textField fields "host"
  let level ← levelField fields
  let line ← integerField fields "line"
  let shortMessage ← textField fields "short_message"
  let timestamp ← numberField fields "timestamp"
  let version ← textField fields "version"
  return {
    version, host, shortMessage, fullMessage, level, facility, line, file
    timestamp := (timestamp.map Json.Number.toBinary64).getD (.zero false)
    extra := fields.filter isExtensionName }

def ofValue (value : Json.Value) : Except LayoutFault Message :=
  match value.fields? with
  | some fields => ofFields fields
  | none => .error .notAnObject

/-- The message that a whole text is, read as a value first. -/
def read (s : Bytes) : Except LayoutFault Message :=
  match Json.Value.read s with
  | .error fault => .error (.json fault)
  | .ok value => ofValue value

/-- The message that a whole text is, decided as early as possible: an array is refused at its
bracket, any other value after it has been read, and what follows a value is looked at last. -/
def readDirect (s : Bytes) : Except LayoutFault Message :=
  match Json.skipSpace s with
  | 0x5b :: _ => .error .notAnObject
  | _ =>
    match Json.Value.readStart s with
    | .error fault => .error (.json fault)
    | .ok (value, rest) =>
      match ofValue value with
      | .error fault => .error fault
      | .ok message =>
        match Json.endOfText rest with
        | .error fault => .error (.json fault)
        | .ok () => .ok message

end Message

end GelfCourier
