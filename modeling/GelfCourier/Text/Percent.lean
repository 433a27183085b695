import GelfCourier.Text.Bytes

/-!
Percent-encoding: letters, digits and four marks stand for themselves, every other octet of the
UTF-8 form is written as a percent sign and two upper-case hexadecimal digits.
-/

set_option autoImplicit false

namespace GelfCourier.Text.Percent

def isUnreserved (b : UInt8) : Bool :=
  (0x30 ≤ b && b ≤ 0x39) || (0x41 ≤ b && b ≤ 0x5a) || (0x61 ≤ b && b ≤ 0x7a) ||
    b == 0x2d || b == 0x2e || b == 0x5f || b == 0x7e

def hexDigit (n : Nat) : Char :=
  if n < 10 then Char.ofNat (0x30 + n) else Char.ofNat (0x37 + n)

def encodeByte (b : UInt8) : List Char :=
  if isUnreserved b then [Char.ofNat b.toNat]
  else ['%', hexDigit (b.toNat / 16), hexDigit (b.toNat % 16)]

def encodeBytes (bytes : Bytes) : List Char :=
  bytes.flatMap encodeByte

def encode (s : String) : String :=
  String.ofList (encodeBytes (Bytes.ofString s))

end GelfCourier.Text.Percent
