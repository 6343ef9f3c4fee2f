import TwinScreen.BigEndian

/-!
# Storing without compression

Data may be stored as it is: two bytes about the data, blocks of up to 65535 bytes that each say
their length twice, and a checksum of four bytes.
-/
namespace TwinScreen.Deflate

def storedMax : Nat := 65535

def littleWord (n : Nat) : List UInt8 := [UInt8.ofNat n, UInt8.ofNat (n / 256)]

/-- A stored block: whether it is the last one, its length, the complement of its length, and its
bytes. -/
def storedBlock (last : Bool) (bytes : List UInt8) : List UInt8 :=
  (if last then 1 else 0) :: littleWord bytes.length ++ littleWord (storedMax - bytes.length) ++
    bytes

def storedBlocks (bytes : List UInt8) : List UInt8 :=
  if _h : bytes.length ≤ storedMax then storedBlock true bytes
  else
    storedBlock false (bytes.take storedMax) ++ storedBlocks (bytes.drop storedMax)
termination_by bytes.length
decreasing_by
  simp only [List.length_drop, storedMax] at *
  omega

def checksumModulus : Nat := 65521

/-- The checksum of data: the sum of its bytes, starting with 1, and the sum of all those sums. -/
def checksum (bytes : List UInt8) : Nat :=
  let (low, high) := bytes.foldl
    (fun (low, high) b =>
      let low := (low + b.toNat) % checksumModulus
      (low, (high + low) % checksumModulus))
    (1, 0)
  65536 * high + low

def store (bytes : List UInt8) : List UInt8 :=
  [0x78, 0x01] ++ storedBlocks bytes ++ BigEndian.longBytes (checksum bytes)

end TwinScreen.Deflate
