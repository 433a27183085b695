import GelfCourier.Json.Writer
import GelfCourier.Message.Severity

/-!
A message as it travels: nine fixed fields and a map of extension fields. Its written form is one
flat JSON object, the fixed fields first and in a fixed order. An extension under the name of a fixed
field is left out, so no extension can hide one.
-/

set_option autoImplicit false

namespace GelfCourier

structure Message where
  version : String := ""
  host : String := ""
  shortMessage : String := ""
  fullMessage : String := ""
  /-- Seconds since the epoch. -/
  timestamp : Binary64 := .zero false
  level : Int32 := 0
  facility : String := ""
  line : Int64 := 0
  file : String := ""
  /-- Extension fields under their names on the wire. -/
  extra : Fields Json.Value := .empty

namespace Message

def fixedNames : List String :=
  ["version", "host", "short_message", "full_message", "timestamp", "level", "facility", "line",
    "file"]

/-- The name on the wire of a field of a log call. -/
def extensionName (name : String) : String :=
  "_" ++ name

def isExtensionName (name : String) : Bool :=
  name.toList.head? == some '_'

def severity? (message : Message) : Option Severity :=
  Severity.ofCode? message.level

/-- The extension field under a name of the log call. -/
def field? (message : Message) (name : String) : Option Json.Value :=
  message.extra.get? (extensionName name)

def fixedMembers (message : Message) : List (String × Json.Tree) :=
  [("version", .string message.version),
    ("host", .string message.host),
    ("short_message", .string message.shortMessage),
    ("full_message", .string message.fullMessage),
    ("timestamp", (Json.Value.float message.timestamp).tree),
    ("level", (Json.Value.integer message.level.toInt).tree),
    ("facility", .string message.facility),
    ("line", (Json.Value.integer message.line.toInt).tree),
    ("file", .string message.file)]

def extraMembers (message : Message) : List (String × Json.Tree) :=
  (message.extra.filter fun name => !fixedNames.contains name).entries.map fun entry =>
    (entry.1, entry.2.tree)

def toTree (message : Message) : Json.Tree :=
  .object (message.fixedMembers ++ message.extraMembers)

/-- The written form. -/
def toBytes (message : Message) : Bytes :=
  message.toTree.write

/-- Equality with floats compared by value: a timestamp that is not a number equals none. -/
def numericEq (a b : Message) : Bool :=
  a.version == b.version && a.host == b.host && a.shortMessage == b.shortMessage &&
    a.fullMessage == b.fullMessage && a.timestamp.numericEq b.timestamp && a.level == b.level &&
    a.facility == b.facility && a.line == b.line && a.file == b.file &&
    Json.Tree.membersEq (a.extra.entries.map fun entry => (entry.1, entry.2.tree))
      (b.extra.entries.map fun entry => (entry.1, entry.2.tree))

end Message

end GelfCourier
