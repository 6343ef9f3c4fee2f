/-!
# The nearest double-precision number

A finite double-precision number is `mantissa * 2 ^ exponent` with a mantissa below `2 ^ 53` and an
exponent from -1074 to 971; the exponent is the smallest that the mantissa's bound allows. A decimal
number stands for the nearest of them, of two equally near ones for the one with the even mantissa.
-/
namespace TwinScreen.Decimal

/-- A finite double-precision number without its sign. -/
structure Binary64 where
  mantissa : Nat
  exponent : Int
  deriving DecidableEq, Repr

/-- The quotient rounded to the nearest integer, a half to the even one. -/
def roundDiv (n d : Nat) : Nat :=
  let q := n / d
  let twice := 2 * (n % d)
  if d < twice ∨ (twice = d ∧ q % 2 = 1) then q + 1 else q

/-- `base ^ z`, as a numerator and a denominator. -/
def power (base : Nat) (z : Int) : Nat × Nat := (base.pow z.toNat, base.pow (-z).toNat)

namespace Binary64

def mantissaBound : Nat := 0x20000000000000

def exponentMin : Int := -1074

def exponentMax : Int := 971

def exponentOf (n d : Nat) : Int :=
  let low := max ((n.log2 : Int) - d.log2 - 53) exponentMin
  let (up, down) := power 2 low
  if mantissaBound ≤ n * down / (d * up) then low + 1 else low

/-- The number nearest to a positive `n / d`, unless it is too large. -/
def ofRatio? (n d : Nat) : Option Binary64 :=
  let exponent := exponentOf n d
  let (up, down) := power 2 exponent
  let mantissa := roundDiv (n * down) (d * up)
  let nearest : Binary64 :=
    if mantissa = mantissaBound then ⟨mantissa / 2, exponent + 1⟩ else ⟨mantissa, exponent⟩
  if nearest.exponent ≤ exponentMax then some nearest else none

/-- The number nearest to `digits * 10 ^ exponent`, unless it is too large. Outside of `10 ^ -330`
to `10 ^ 310` every number is too small or too large. -/
def ofDecimal? (digits : Nat) (exponent : Int) : Option Binary64 :=
  let magnitude := (Nat.toDigits 10 digits).length + exponent
  if digits = 0 ∨ magnitude < -330 then some ⟨0, exponentMin⟩
  else if 310 < magnitude then none
  else
    let (up, down) := power 10 exponent
    ofRatio? (digits * up) down

end Binary64

end TwinScreen.Decimal
