import GelfCourier.Json.NumberText

/-!
The compact written form of JSON: no blanks, members in the order of the tree. Inside strings the
quote, the backslash and the controls are escaped and every other octet stands as it is.
-/

set_option autoImplicit false

namespace GelfCourier.Json

/-- What stands for one octet of a string. -/
def escapeByte (b : UInt8) : Bytes :=
  if b = 0x22 then [0x5c, 0x22]
  else if b = 0x5c then [0x5c, 0x5c]
  else if b = 0x08 then [0x5c, 0x62]
  else if b = 0x0c then [0x5c, 0x66]
  else if b = 0x0a then [0x5c, 0x6e]
  else if b = 0x0d then [0x5c, 0x72]
  else if b = 0x09 then [0x5c, 0x74]
  else if b < 0x20 then
    [0x5c, 0x75, 0x30, 0x30, Bytes.hexDigit (b.toNat / 16), Bytes.hexDigit (b.toNat % 16)]
  else [b]

def stringBytes (s : String) : Bytes :=
  0x22 :: (Bytes.ofString s).flatMap escapeByte ++ [0x22]

namespace Tree

mutual

def write : Tree → Bytes
  | .null => [0x6e, 0x75, 0x6c, 0x6c]
  | .bool true => [0x74, 0x72, 0x75, 0x65]
  | .bool false => [0x66, 0x61, 0x6c, 0x73, 0x65]
  | .number n => n.bytes
  | .string s => stringBytes s
  | .array items => 0x5b :: writeItems items ++ [0x5d]
  | .object members => 0x7b :: writeMembers members ++ [0x7d]

/-- The items with a comma between each two. -/
def writeItems : List Tree → Bytes
  | [] => []
  | [item] => item.write
  | item :: rest => item.write ++ 0x2c :: writeItems rest

/-- The members with a comma between each two. -/
def writeMembers : List (String × Tree) → Bytes
  | [] => []
  | [(name, value)] => stringBytes name ++ 0x3a :: value.write
  | (name, value) :: rest => stringBytes name ++ 0x3a :: value.write ++ 0x2c :: writeMembers rest

end

end Tree

def Value.write (value : Value) : Bytes :=
  value.tree.write

end GelfCourier.Json
