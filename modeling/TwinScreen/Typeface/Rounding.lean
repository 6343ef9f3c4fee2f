/-!
# Whole numbers near single-precision numbers

Numbers from `2 ^ 23` on are whole. Smaller ones are compared with what is left of them without
their fraction, which is exact.
-/
namespace TwinScreen.Typeface

/-- A number truncated towards zero; beyond 32 bits, the nearest number that has them. What is not a
number becomes zero. -/
def truncated (x : Float32) : Int :=
  if x < 0 then max (-0x80000000) (-(-x).toUInt64.toNat) else min 0x7FFFFFFF x.toUInt64.toNat

/-- The largest whole number up to a number. -/
def floor (x : Float32) : Float32 :=
  if x.abs < 0x800000 then
    let n := Float32.ofInt (truncated x)
    -- A whole number is itself, down to the sign of zero.
    if n == x then x else if x < n then n - 1 else n
  else x

/-- The smallest whole number from a number on. -/
def ceil (x : Float32) : Float32 := -floor (-x)

/-- The whole number nearest to a number that is not negative; halves go up. -/
def nearest (x : Float32) : Float32 :=
  let n := floor x
  if 0.5 ≤ x - n then n + 1 else n

end TwinScreen.Typeface
