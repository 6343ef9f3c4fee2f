/-!
# Big-endian numbers in bytes

Numbers are read at a position of the data, highest byte first; there is none where the data ends
before the number does.
-/
namespace TwinScreen.BigEndian

def byte? (data : Array UInt8) (i : Nat) : Option Nat := data[i]?.map UInt8.toNat

/-- The unsigned 16-bit number at a position. -/
def word? (data : Array UInt8) (i : Nat) : Option Nat := do
  return 256 * (← byte? data i) + (← byte? data (i + 1))

/-- The unsigned 32-bit number at a position. -/
def long? (data : Array UInt8) (i : Nat) : Option Nat := do
  return 65536 * (← word? data i) + (← word? data (i + 2))

def signedByte? (data : Array UInt8) (i : Nat) : Option Int := do
  return Int.bmod (← byte? data i) 256

def signedWord? (data : Array UInt8) (i : Nat) : Option Int := do
  return Int.bmod (← word? data i) 65536

/-- The four bytes of the lowest 32 bits of a number. -/
def longBytes (n : Nat) : List UInt8 :=
  [UInt8.ofNat (n / 16777216), UInt8.ofNat (n / 65536), UInt8.ofNat (n / 256), UInt8.ofNat n]

def tail? (data : Array UInt8) (i : Nat) : Option (Array UInt8) :=
  if i ≤ data.size then some (data.extract i data.size) else none

def slice? (data : Array UInt8) (i count : Nat) : Option (Array UInt8) :=
  if i + count ≤ data.size then some (data.extract i (i + count)) else none

def holds (data : Array UInt8) (i count : Nat) : Bool := decide (i + count ≤ data.size)

/-- Looks for a position in an increasing sequence by halving: `order` tells how the value at a
position compares with the one looked for. `base` is the first position left, `count` the number of
positions left. -/
def bisect (order : Nat → Ordering) (base count : Nat) : Option Nat :=
  if _h : count ≤ 1 then
    if count = 1 ∧ order base = .eq then some base else none
  else
    let middle := base + count / 2
    bisect order (if order middle = .gt then base else middle) (count - count / 2)
termination_by count
decreasing_by omega

end TwinScreen.BigEndian
