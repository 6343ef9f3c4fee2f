import TwinScreen.Fault

/-!
# Bounded numbers

Sizes (widths, heights, counts, byte positions, text weights) are natural numbers below `2 ^ 64`;
pixel coordinates are integers from `-2 ^ 31` up to but not including `2 ^ 31`; dimensions of
windows and of texts, and what channels of colors are computed with, are natural numbers below
`2 ^ 32`. An operation whose exact result leaves its range stops with `Fault.overflow`, so a result
that comes out is the exact one. This is how builds with overflow checks compute; builds without
them, in which results wrap around, are not modelled.
-/
namespace TwinScreen

namespace Size

/-- Every size is below this bound. -/
def bound : Nat := 0x10000000000000000

/-- No buffer holds more bytes than this. -/
def bytesMax : Nat := 0x7FFFFFFFFFFFFFFF

def fit (n : Nat) : Except Fault Nat :=
  if n < bound then .ok n else .error .overflow

def add (a b : Nat) : Except Fault Nat := fit (a + b)

def mul (a b : Nat) : Except Fault Nat := fit (a * b)

/-- The product, or the largest size where the product is larger. -/
def saturatingMul (a b : Nat) : Nat := min (a * b) (bound - 1)

theorem fit_eq_ok_iff {n m : Nat} : fit n = .ok m ↔ n < bound ∧ n = m := by
  unfold fit
  split <;> simp <;> omega

theorem fit_of_lt {n : Nat} (h : n < bound) : fit n = .ok n := by
  simp [fit, h]

theorem add_of_lt {a b : Nat} (h : a + b < bound) : add a b = .ok (a + b) := fit_of_lt h

theorem mul_of_lt {a b : Nat} (h : a * b < bound) : mul a b = .ok (a * b) := fit_of_lt h

end Size

namespace Offset

def fit (z : Int) : Except Fault Int :=
  if -0x80000000 ≤ z ∧ z < 0x80000000 then .ok z else .error .overflow

def add (a b : Int) : Except Fault Int := fit (a + b)

def sub (a b : Int) : Except Fault Int := fit (a - b)

def mul (a b : Int) : Except Fault Int := fit (a * b)

/-- The coordinate whose lowest 32 bits are those of a size. -/
def ofSize (n : Nat) : Int := Int.bmod n 0x100000000

theorem fit_eq_ok_iff {z w : Int} : fit z = .ok w ↔ (-0x80000000 ≤ z ∧ z < 0x80000000) ∧ z = w := by
  unfold fit
  split <;> simp <;> omega

theorem ofSize_of_lt {n : Nat} (h : n < 0x80000000) : ofSize n = n := by
  unfold ofSize
  rw [Int.bmod_def]
  split <;> omega

end Offset

namespace Extent

/-- Dimensions of windows and texts, and the numbers colors are computed with, are below this
bound. -/
def bound : Nat := 0x100000000

def mul (a b : Nat) : Except Fault Nat :=
  if a * b < bound then .ok (a * b) else .error .overflow

/-- The lowest 32 bits of a size. -/
def ofSize (n : Nat) : Nat := n % bound

def add (a b : Nat) : Except Fault Nat :=
  if a + b < bound then .ok (a + b) else .error .overflow

def sub (a b : Nat) : Except Fault Nat :=
  if b ≤ a then .ok (a - b) else .error .overflow

def toByte (n : Nat) : Except Fault UInt8 :=
  if n < 256 then .ok (UInt8.ofNat n) else .error .overflow

end Extent

end TwinScreen
