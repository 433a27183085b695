/-!
Octet strings as lists, with the UTF-8 reading and writing of text.
-/

set_option autoImplicit false

namespace GelfCourier

abbrev Bytes := List UInt8

namespace Bytes

def ofString (s : String) : Bytes :=
  s.toUTF8.data.toList

/-- The text that the octets encode, if they are valid UTF-8. -/
def toString? (bytes : Bytes) : Option String :=
  String.fromUTF8? ⟨bytes.toArray⟩

@[simp] theorem toString?_ofString (s : String) : toString? (ofString s) = some s := by
  have whole : (⟨(ofString s).toArray⟩ : ByteArray) = s.toByteArray := rfl
  unfold toString? String.fromUTF8?
  rw [whole, dif_pos s.isValidUTF8]
  rfl

theorem ofString_injective {s t : String} (h : ofString s = ofString t) : s = t := by
  have both := congrArg toString? h
  simpa using both

/-- One hexadecimal digit, in lower case. -/
def hexDigit (n : Nat) : UInt8 :=
  if n < 10 then (0x30 + n).toUInt8 else (0x57 + n).toUInt8

def hexDigitValue? (c : UInt8) : Option Nat :=
  if 0x30 ≤ c ∧ c ≤ 0x39 then some (c.toNat - 0x30)
  else if 0x61 ≤ c ∧ c ≤ 0x66 then some (c.toNat - 0x57)
  else if 0x41 ≤ c ∧ c ≤ 0x46 then some (c.toNat - 0x37)
  else none

/-- Two lower-case hexadecimal digits for each octet. -/
def toHex (bytes : Bytes) : String :=
  String.ofList (bytes.flatMap fun b =>
    [Char.ofNat (hexDigit (b.toNat / 16)).toNat, Char.ofNat (hexDigit (b.toNat % 16)).toNat])

/-- The octets that pairs of hexadecimal digits stand for. -/
def ofHexDigits : Bytes → Option Bytes
  | [] => some []
  | [_] => none
  | high :: low :: rest => do
    let h ← hexDigitValue? high
    let l ← hexDigitValue? low
    let bytes ← ofHexDigits rest
    return (16 * h + l).toUInt8 :: bytes

/-- The little-endian octets of a number modulo a power of 256. -/
def littleEndian : (size : Nat) → (value : Nat) → Bytes
  | 0, _ => []
  | size + 1, value => value.toUInt8 :: littleEndian size (value / 256)

def ofLittleEndian : Bytes → Nat
  | [] => 0
  | b :: rest => b.toNat + 256 * ofLittleEndian rest

end Bytes

end GelfCourier
