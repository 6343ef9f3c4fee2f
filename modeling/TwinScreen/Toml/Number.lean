import TwinScreen.Text.Hexadecimal
import TwinScreen.Toml.Value

/-!
# Written numbers, truth values and moments

A number may have a sign, and an underscore between any two of its digits. A whole number in base
10 has no superfluous zeros in front; other bases are marked by `0x`, `0o` or `0b` and have no sign.
Behind an underscore the digits of a whole number are not looked at closely: digits of any base will
do, and the number may turn out to be garbled. A moment is a date, a time of day, or both with or
without an offset from universal time.
-/
namespace TwinScreen.Toml

/-! ## Digits -/

def isAnyDigit (c : Char) : Bool := (Hexadecimal.value? c).isSome

/-- Leaves out the underscores, each of which must stand between two digits. `joins` says that an
underscore may come first. -/
def withoutUnderscores? (isDigit : Char → Bool) (joins : Bool) : List Char → Option (List Char)
  | [] => some []
  | '_' :: d :: rest =>
      if joins && isDigit d then (withoutUnderscores? isDigit true rest).map (d :: ·) else none
  | '_' :: [] => none
  | c :: rest => (withoutUnderscores? isDigit (isDigit c) rest).map (c :: ·)

/-- The characters of a number without its underscores. The first character, which may be a sign,
counts as a digit. -/
def joined? (isDigit : Char → Bool) : List Char → Option (List Char)
  | [] => some []
  | '_' :: _ => none
  | c :: rest => (withoutUnderscores? isDigit true rest).map (c :: ·)

def digits? (base : Nat) (s : List Char) : Option (List Nat) :=
  s.mapM fun c =>
    match Hexadecimal.value? c with
    | some d => if d < base then some d else none
    | none => none

def ofDigits (base : Nat) (digits : List Nat) : Nat := digits.foldl (fun n d => base * n + d) 0

/-- The sign of a number and what follows it. -/
def signed : List Char → Bool × List Char
  | '-' :: rest => (true, rest)
  | '+' :: rest => (false, rest)
  | s => (false, s)

/-! ## Whole numbers -/

/-- A whole number by its sign and its digits, if they are some. -/
def Value.ofWhole (base : Nat) (negative : Bool) (s : List Char) : Value :=
  match digits? base s with
  | none | some [] => garbled
  | some digits =>
      let n := ofDigits base digits
      integer (if negative then -n else n)

/-- The base of digits behind a zero and this letter. -/
def base? : Char → Option Nat
  | 'x' => some 16
  | 'o' => some 8
  | 'b' => some 2
  | _ => none

/-- A number behind the mark of its base. -/
def Value.ofBased? (base : Nat) (s : List Char) : Option Value := do
  let plain ← joined? isAnyDigit s
  let _ ← digits? base plain
  return ofWhole base false plain

/-- A zero in front of other characters. -/
def padded : List Char → Bool
  | '0' :: _ :: _ => true
  | _ => false

def Value.ofDecimal? (s : List Char) : Option Value := do
  if padded (signed s).2 then none
  else
    let (negative, plain) := signed (← joined? isAnyDigit s)
    return ofWhole 10 negative plain

/-! ## Numbers with a point or an exponent -/

def isExponentMark (c : Char) : Bool := c == 'e' || c == 'E'

def someDigits? (s : List Char) : Option (List Nat) :=
  if s.isEmpty then none else digits? 10 s

def exponent? : List Char → Option Int
  | [] => some 0
  | _ :: rest => do
      let (negative, written) := signed rest
      let n := ofDigits 10 (← someDigits? written)
      return if negative then -n else n

/-- The digits behind the point that may follow a whole number. -/
def fraction? : List Char → Option (List Nat)
  | [] => some []
  | _ :: rest => someDigits? rest

/-- The digits in front of a point or an exponent, with underscores, are several of which the first
is a zero. -/
def isPadded (s : List Char) : Bool :=
  let digits := s.takeWhile fun c => c.isDigit || c == '_'
  s.head? == some '0' && 1 < digits.countP Char.isDigit

/-- A number with a point, an exponent or both. -/
def fractional? (s : List Char) : Option Fractional := do
  if isPadded (signed s).2 then none
  else
    let (negative, number) := signed (← joined? Char.isDigit s)
    let mantissa := number.takeWhile fun c => !isExponentMark c
    let whole ← someDigits? (mantissa.takeWhile fun c => c != '.')
    let after ← fraction? (mantissa.dropWhile fun c => c != '.')
    let exponent ← exponent? (number.dropWhile fun c => !isExponentMark c)
    return .finite negative (ofDigits 10 (whole ++ after)) (exponent - after.length)

/-! ## Moments -/

/-- A number of two digits that lies between two bounds, and what follows it. -/
def twoDigits? (low high : Nat) : List Char → Option (Nat × List Char)
  | a :: b :: rest => do
      let n := ofDigits 10 (← digits? 10 [a, b])
      if low ≤ n ∧ n ≤ high then return (n, rest) else none
  | _ => none

/-- What follows a certain character. -/
def after? (c : Char) : List Char → Option (List Char)
  | d :: rest => if d = c then some rest else none
  | [] => none

def daysIn (year month : Nat) : Nat :=
  if month = 2 then
    if year % 4 = 0 ∧ (year % 100 ≠ 0 ∨ year % 400 = 0) then 29 else 28
  else if [4, 6, 9, 11].contains month then 30 else 31

def afterDate? (s : List Char) : Option (List Char) := do
  let (century, s) ← twoDigits? 0 99 s
  let (year, s) ← twoDigits? 0 99 s
  let (month, s) ← twoDigits? 1 12 (← after? '-' s)
  let (_, s) ← twoDigits? 1 (daysIn (100 * century + year) month) (← after? '-' s)
  return s

/-- What follows the fraction of a second, which may be missing. -/
def afterFraction? : List Char → Option (List Char)
  | '.' :: d :: rest => if d.isDigit then some (rest.dropWhile Char.isDigit) else none
  | '.' :: [] => none
  | s => some s

/-- What follows the seconds, which may be missing. -/
def afterSeconds? : List Char → Option (List Char)
  | ':' :: s => do
      let (_, s) ← twoDigits? 0 60 s
      afterFraction? s
  | s => some s

def afterTime? (s : List Char) : Option (List Char) := do
  let (_, s) ← twoDigits? 0 23 s
  let (_, s) ← twoDigits? 0 59 (← after? ':' s)
  afterSeconds? s

/-- An offset from universal time, which may be missing. -/
def isOffset : List Char → Bool
  | [] | ['Z'] | ['z'] => true
  | sign :: s =>
      (sign == '+' || sign == '-') &&
        ((do
          let (_, s) ← twoDigits? 0 23 s
          let (_, s) ← twoDigits? 0 59 (← after? ':' s)
          return s.isEmpty).getD false)

def isDateMark (c : Char) : Bool := c == 'T' || c == 't' || c == ' '

/-- A date, a time of day, or both. -/
def isMoment (s : List Char) : Bool :=
  match afterDate? s with
  | some [] => true
  | some (c :: time) =>
      isDateMark c && (match afterTime? time with
        | some offset => isOffset offset
        | none => false)
  | none => afterTime? s == some []

/-! ## Any of them -/

namespace Value

/-- What follows the first digits tells the kind of a number in base 10. -/
def ofNumber? (s : List Char) : Option Value :=
  let rest := (signed s).2.dropWhile Char.isDigit
  match rest with
  | [] => ofDecimal? s
  | c :: _ =>
      if c = '-' || c = ':' then if isMoment s then some moment else none
      else if rest.any fun d => d = '.' || isExponentMark d then (fractional? s).map fractional
      else if c = '_' then ofDecimal? s
      else none

/-- The value that is written without quotation marks and brackets. -/
def ofWritten? (s : List Char) : Option Value :=
  let (negative, number) := signed s
  if s = ['t', 'r', 'u', 'e'] then some (boolean true)
  else if s = ['f', 'a', 'l', 's', 'e'] then some (boolean false)
  else if number = ['i', 'n', 'f'] then some (fractional (.infinite negative))
  else if number = ['n', 'a', 'n'] then some (fractional .notANumber)
  else
    match number, s with
    | [], _ => none
    | '0' :: mark :: _, '0' :: _ :: digits =>
        match base? mark with
        | some base => ofBased? base digits
        | none => ofNumber? s
    | _, _ => ofNumber? s

end Value

end TwinScreen.Toml
