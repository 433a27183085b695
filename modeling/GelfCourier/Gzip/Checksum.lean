import GelfCourier.Text.Bytes

/-!
The cyclic redundancy check of 32 bits that closes a gzip member.
-/

set_option autoImplicit false

namespace GelfCourier.Gzip

def crcShift (crc : UInt32) : UInt32 :=
  if crc &&& 1 = 1 then (crc >>> 1) ^^^ 0xedb88320 else crc >>> 1

def crcByte (crc : UInt32) (b : UInt8) : UInt32 :=
  let mixed := crc ^^^ b.toUInt32
  crcShift (crcShift (crcShift (crcShift (crcShift (crcShift (crcShift (crcShift mixed)))))))

def crc32 (bytes : Bytes) : UInt32 :=
  bytes.foldl crcByte 0xffffffff ^^^ 0xffffffff

end GelfCourier.Gzip
