import GelfCourier.Event.Basic
import GelfCourier.Json.NumberText
import GelfCourier.Text.Quoted

/-!
The text of an event where the program prints it, after the time and the level: the target, a colon,
and the fields in the order in which they were recorded. The text field stands by its value alone, any
other behind its name. A line break in a value that is not quoted begins a new line.
-/

set_option autoImplicit false

namespace GelfCourier

/-- How the names of fields begin that are never printed. -/
def hiddenFields : String := "log."

/-- A value under a name. A string is quoted unless it is the text field; an error is followed by its
causes. -/
def EventValue.printed (name : String) : EventValue → String
  | .string text => if name = Event.messageField then text else Text.quoted text
  | .signed value => toString value.toInt
  | .unsigned value => toString value.toNat
  | .float value => (Bytes.toString? (Json.floatBytes value)).getD ""
  | .flag value => if value then "true" else "false"
  | .failure text [] => text
  | .failure text causes =>
    text ++ " " ++ name ++ ".sources=[" ++ ", ".intercalate causes ++ "]"
  | .shown text => text
  | .wide value => toString value
  | .octets bytes => EventValue.octetsText bytes

namespace Event

def printedField? (field : String × EventValue) : Option String :=
  if hiddenFields.toList.isPrefixOf field.1.toList then none
  else if field.1 = messageField then some (field.2.printed field.1)
  else some (field.1 ++ "=" ++ field.2.printed field.1)

def printed (event : Event) : String :=
  event.target ++ ": " ++ " ".intercalate (event.fields.filterMap printedField?)

def printedLines (event : Event) : List String :=
  event.printed.splitOn "\n"

end Event

end GelfCourier
