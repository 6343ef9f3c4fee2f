/-!
# Numbers on the command line

A number is written in decimal digits, of which the first may be a sign. Every number has a range;
the first character that is no digit, or that takes the number out of its range, decides why a text
is refused.
-/
namespace TwinScreen.CommandLine

inductive NumberError where
  | empty
  | invalidDigit
  | tooLarge
  | tooSmall
  deriving DecidableEq, Repr

namespace NumberError

def message : NumberError → String
  | empty => "cannot parse integer from empty string"
  | invalidDigit => "invalid digit found in string"
  | tooLarge => "number too large to fit in target type"
  | tooSmall => "number too small to fit in target type"

end NumberError

/-- Reads digits after a number that was read so far, up to a greatest number. -/
def readDigits (greatest : Nat) (beyond : NumberError) : Nat → List Char → Except NumberError Nat
  | n, [] => .ok n
  | n, c :: rest =>
      if c.isDigit then
        let m := 10 * n + (c.toNat - '0'.toNat)
        if m ≤ greatest then readDigits greatest beyond m rest else .error beyond
      else
        .error .invalidDigit

def readMagnitude (greatest : Nat) (beyond : NumberError) (digits : List Char) :
    Except NumberError Nat :=
  if digits = [] then .error .invalidDigit else readDigits greatest beyond 0 digits

/-- A natural number up to a greatest one; a plus sign may stand in front. -/
def readNatural (greatest : Nat) : List Char → Except NumberError Nat
  | [] => .error .empty
  | '+' :: digits => readMagnitude greatest .tooLarge digits
  | digits => readMagnitude greatest .tooLarge digits

/-- An integer from `-bound` up to but not including `bound`; either sign may stand in front. -/
def readInteger (bound : Nat) : List Char → Except NumberError Int
  | '-' :: digits => do return -((← readMagnitude bound .tooSmall digits) : Nat)
  | text => do return ((← readNatural (bound - 1) text) : Nat)

end TwinScreen.CommandLine
