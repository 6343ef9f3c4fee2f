import TwinScreen.Decimal.Nearest

/-!
# The shortest decimal number

A double-precision number is written with the fewest digits that read back as the same number, and
among those with the digits nearest to it. Digits are written positionally, with a point and at
least one digit on either side of it.
-/
namespace TwinScreen.Decimal

/-- The decimal numbers that read back as a double-precision number lie between two bounds, which
belong to them if the mantissa is even. Bounds and the number itself are in quarters of the last
binary place. -/
structure Neighbourhood where
  low : Nat
  middle : Nat
  high : Nat
  closed : Bool
  /-- The binary exponent of a quarter. -/
  exponent : Int

/-- The numbers that read back as `x`. Below a power of two they lie closer together. -/
def Neighbourhood.of (x : Binary64) : Neighbourhood :=
  let below :=
    if 2 * x.mantissa = Binary64.mantissaBound ∧ Binary64.exponentMin < x.exponent then 1 else 2
  { low := 4 * x.mantissa - below
    middle := 4 * x.mantissa
    high := 4 * x.mantissa + 2
    closed := x.mantissa % 2 == 0
    exponent := x.exponent - 2 }

/-- The multiple of `10 ^ place` that reads back and is nearest, given as its factor. -/
def Neighbourhood.onGrid? (n : Neighbourhood) (place : Int) : Option Nat :=
  let (tens, tenths) := power 10 place
  let (twos, halves) := power 2 n.exponent
  let quarter := twos * tenths
  let step := tens * halves
  let reads (factor : Nat) : Bool :=
    let z := factor * step
    if n.closed then n.low * quarter ≤ z && z ≤ n.high * quarter
    else n.low * quarter < z && z < n.high * quarter
  let below := n.middle * quarter / step
  let above := below + 1
  let nearBelow := n.middle * quarter - below * step ≤ above * step - n.middle * quarter
  match reads below && below != 0, reads above with
  | true, true => some (if nearBelow then below else above)
  | true, false => some below
  | false, true => some above
  | false, false => none

/-- The coarsest grid with a number that reads back, from `10 ^ place` on to finer ones. -/
def Neighbourhood.search (n : Neighbourhood) (place : Int) : Nat → Nat × Int
  | 0 => (n.middle, place)
  | grids + 1 =>
      match n.onGrid? place with
      | some factor => (factor, place)
      | none => search n (place - 1) grids

/-- The shortest digits of a positive number and the place of the last one. -/
def shortest (x : Binary64) : Nat × Int := (Neighbourhood.of x).search 309 634

/-- Digits with the last one at a decimal place, written positionally. -/
def positional (digits : Nat) (place : Int) : List Char :=
  let written := Nat.toDigits 10 digits
  if 0 ≤ place then written ++ List.replicate place.toNat '0' ++ ['.', '0']
  else
    let after := (-place).toNat
    let padded := List.replicate (after + 1 - written.length) '0' ++ written
    padded.take (padded.length - after) ++ '.' :: padded.drop (padded.length - after)

def render (x : Binary64) : List Char :=
  if x.mantissa = 0 then ['0', '.', '0']
  else
    let (digits, place) := shortest x
    positional digits place

end TwinScreen.Decimal
