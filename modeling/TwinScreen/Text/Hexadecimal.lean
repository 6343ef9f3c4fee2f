/-!
# Hexadecimal digits

Values of digits in both cases, digits of values, and whole bytes as two digits.
-/
namespace TwinScreen.Hexadecimal

/-- The value of a digit, in either case. -/
def value? (c : Char) : Option Nat :=
  let n := c.toNat
  if 48 ≤ n ∧ n ≤ 57 then some (n - 48)
  else if 65 ≤ n ∧ n ≤ 70 then some (n - 55)
  else if 97 ≤ n ∧ n ≤ 102 then some (n - 87)
  else none

def upper (n : Nat) : Char := if n < 10 then Char.ofNat (48 + n) else Char.ofNat (55 + n)

def lower (n : Nat) : Char := if n < 10 then Char.ofNat (48 + n) else Char.ofNat (87 + n)

def upperByte (b : UInt8) : List Char := [upper (b.toNat / 16), upper (b.toNat % 16)]

def lowerByte (b : UInt8) : List Char := [lower (b.toNat / 16), lower (b.toNat % 16)]

/-- A number in lower-case digits, without leading zeros. -/
def lowerNumber (n : Nat) : List Char :=
  if n < 16 then [lower n] else lowerNumber (n / 16) ++ [lower (n % 16)]

/-- The bytes of a text of digit pairs; reading stops at the first pair that is none. -/
def bytes : List Char → List UInt8
  | high :: low :: rest =>
      match value? high, value? low with
      | some h, some l => UInt8.ofNat (16 * h + l) :: bytes rest
      | _, _ => []
  | _ => []

theorem value?_upper {n : Nat} (h : n < 16) : value? (upper n) = some n := by
  revert h
  revert n
  decide

theorem value?_lower {n : Nat} (h : n < 16) : value? (lower n) = some n := by
  revert h
  revert n
  decide

end TwinScreen.Hexadecimal
