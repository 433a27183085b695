import GelfCourier.Message.Basic
import GelfCourier.Record.Basic
import GelfCourier.Text.Blank

/-!
From log calls to messages. The text is trimmed; its first line is the short message, and the whole
of it the full message where there is more than one line. Extension fields come from the static
fields, then the caller, then the call's own fields, and a later one replaces an earlier one.
-/

set_option autoImplicit false

namespace GelfCourier

/-- The field whose failure also shows its trace. -/
def errorField : String := "error"

def traceField : String := "stacktrace"

structure Encoder where
  host : String
  /-- Fields added to every message, under their names without the underscore. -/
  extra : Fields Json.Value := .empty

namespace Encoder

def shortText (text : List Char) : List Char :=
  (Text.trim text).takeWhile (· ≠ '\n')

def fullText (text : List Char) : List Char :=
  if '\n' ∈ Text.trim text then Text.trim text else []

def addStatic (static : Fields Json.Value) (extra : Fields Json.Value) : Fields Json.Value :=
  static.entries.foldl
    (fun extra entry => extra.insert (Message.extensionName entry.1) entry.2) extra

def addCaller (caller : Option Caller) (extra : Fields Json.Value) : Fields Json.Value :=
  match caller with
  | none => extra
  | some caller =>
    ((extra.insert (Message.extensionName "caller_file") (.string caller.file)).insert
      (Message.extensionName "caller_line") (.integer caller.line.toNat)).insert
      (Message.extensionName "caller_function") (.string caller.function)

/-- Adds a field of the call, and after a failure under `errorField` its trace. -/
def addField (extra : Fields Json.Value) (entry : String × FieldValue) : Fields Json.Value :=
  let extra := extra.insert (Message.extensionName entry.1) entry.2.toValue
  match entry.2 with
  | .failure ⟨_, some trace⟩ =>
    if entry.1 = errorField then extra.insert (Message.extensionName traceField) (.string trace)
    else extra
  | _ => extra

def extraFields (encoder : Encoder) (record : Record) : Fields Json.Value :=
  record.fields.entries.foldl addField
    (addCaller record.caller (addStatic encoder.extra .empty))

def encode (encoder : Encoder) (record : Record) : Message where
  version := "1.1"
  host := encoder.host
  shortMessage := String.ofList (shortText record.message.toList)
  fullMessage := String.ofList (fullText record.message.toList)
  timestamp := record.time.toBinary64
  level := record.level.severity.code
  extra := encoder.extraFields record

end Encoder

end GelfCourier
