import TiBench.Bytes

/-!
# CRC-32

The checksum of ZIP archives: the reflected polynomial `0xEDB88320`, started and ended with all
bits inverted.
-/

namespace TiBench.Zip

/-- One bit of the division by the polynomial. -/
def crcShift (crc : UInt32) : UInt32 :=
  if crc &&& 1 = 1 then crc >>> 1 ^^^ 0xEDB88320 else crc >>> 1

/-- The division taken on by one byte. -/
def crcStep (crc : UInt32) (b : UInt8) : UInt32 :=
  (List.range 8).foldl (fun crc _ => crcShift crc) (crc ^^^ b.toUInt32)

/-- The checksum of a byte string. -/
def crc32 (data : Bytes) : UInt32 := ~~~(data.foldl crcStep 0xFFFFFFFF)

end TiBench.Zip
