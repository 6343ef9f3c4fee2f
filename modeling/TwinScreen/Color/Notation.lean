import TwinScreen.Color
import TwinScreen.Text.Blank
import TwinScreen.Text.Quoted

/-!
# Written colors

A color is written as a number sign and two hexadecimal digits for each of red, green, blue and,
unless it is opaque, alpha. Reading allows blank characters around it and digits of either case; a
channel may also be a plus sign and one digit.
-/
namespace TwinScreen.Color

structure Unreadable where
  text : String
  deriving DecidableEq, Repr

namespace Unreadable

def message (e : Unreadable) : String :=
  "Invalid color " ++ Text.quoted e.text ++ ", expected #RRGGBB or #RRGGBBAA"

end Unreadable

def written (c : Color) : List Char :=
  '#' :: Hexadecimal.upperByte c.red ++ Hexadecimal.upperByte c.green ++
    Hexadecimal.upperByte c.blue ++
    (if c.alpha = 255 then [] else Hexadecimal.upperByte c.alpha)

def print (c : Color) : String := String.ofList c.written

/-- A channel from its two characters. -/
def channel? (high low : Char) : Option UInt8 :=
  if high = '+' then (Hexadecimal.value? low).map UInt8.ofNat
  else do return UInt8.ofNat (16 * (← Hexadecimal.value? high) + (← Hexadecimal.value? low))

def ofWritten? (s : List Char) : Option Color :=
  match Text.trim s with
  | ['#', r₁, r₂, g₁, g₂, b₁, b₂] => do
      return ⟨← channel? r₁ r₂, ← channel? g₁ g₂, ← channel? b₁ b₂, 255⟩
  | ['#', r₁, r₂, g₁, g₂, b₁, b₂, a₁, a₂] => do
      return ⟨← channel? r₁ r₂, ← channel? g₁ g₂, ← channel? b₁ b₂, ← channel? a₁ a₂⟩
  | _ => none

def parse (s : String) : Except Unreadable Color :=
  match ofWritten? s.toList with
  | some c => .ok c
  | none => .error ⟨s⟩

def describe (c : Color) : String :=
  s!"Color \x7b r: {c.red}, g: {c.green}, b: {c.blue}, a: {c.alpha} \x7d"

end TwinScreen.Color
