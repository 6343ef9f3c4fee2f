/-!
# Checksums

CRC-32 of bytes, as image files use it: the remainder of division by the reflected polynomial
`EDB88320`, started from all ones and inverted at the end.
-/
namespace TwinScreen.Checksum

/-- The remainder after one more bit. -/
def shift (remainder : UInt32) : UInt32 :=
  if remainder &&& 1 = 1 then (remainder >>> 1) ^^^ 0xEDB88320 else remainder >>> 1

def update (remainder : UInt32) (b : UInt8) : UInt32 :=
  let r := remainder ^^^ b.toUInt32
  shift (shift (shift (shift (shift (shift (shift (shift r)))))))

def crc32 (bytes : List UInt8) : UInt32 := bytes.foldl update 0xFFFFFFFF ^^^ 0xFFFFFFFF

def crc32Array (bytes : Array UInt8) : UInt32 := bytes.foldl update 0xFFFFFFFF ^^^ 0xFFFFFFFF

theorem crc32_toList (bytes : Array UInt8) : crc32 bytes.toList = crc32Array bytes := by
  simp [crc32, crc32Array]

end TwinScreen.Checksum
