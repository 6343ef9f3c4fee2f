import TwinScreen.Bounds

/-!
# Colors

Colors are straight (not premultiplied) red, green, blue and alpha, 8 bits each. `onto` composites
one color on another, source-over, with every quotient rounded to the nearest integer; `composed`
computes the same in numbers of 32 bits, with a fault where one leaves their range.
-/
namespace TwinScreen

structure Color where
  red : UInt8
  green : UInt8
  blue : UInt8
  alpha : UInt8
  deriving DecidableEq, Repr, Inhabited

namespace Color

def rgb (red green blue : UInt8) : Color := ⟨red, green, blue, 255⟩

def black : Color := rgb 0 0 0

def white : Color := rgb 255 255 255

def transparent : Color := ⟨0, 0, 0, 0⟩

def withAlpha (c : Color) (alpha : UInt8) : Color := { c with alpha }

/-- The channels in storage order: red, green, blue, alpha. -/
def bytes (c : Color) : List UInt8 := [c.red, c.green, c.blue, c.alpha]

/-- The channel at a position of the storage order, counted modulo 4. -/
def byte (c : Color) (i : Nat) : UInt8 :=
  match i % 4 with
  | 0 => c.red
  | 1 => c.green
  | 2 => c.blue
  | _ => c.alpha

/-- The alpha of a source over a destination, in 255ths of a level. -/
def overAlpha (sourceAlpha destAlpha : Nat) : Nat :=
  sourceAlpha * 255 + destAlpha * (255 - sourceAlpha)

/-- One channel of a source over a destination: the two weighted by their shares of the resulting
alpha, rounded to nearest. -/
def overChannel (source dest sourceAlpha destAlpha : Nat) : Nat :=
  let total := overAlpha sourceAlpha destAlpha
  (source * sourceAlpha * 255 + dest * destAlpha * (255 - sourceAlpha) + total / 2) / total

def onto (source dest : Color) : Color :=
  if source.alpha = 255 then source
  else if source.alpha = 0 then dest
  else
    let sa := source.alpha.toNat
    let da := dest.alpha.toNat
    let channel (s d : UInt8) := UInt8.ofNat (overChannel s.toNat d.toNat sa da)
    { red := channel source.red dest.red
      green := channel source.green dest.green
      blue := channel source.blue dest.blue
      alpha := UInt8.ofNat ((overAlpha sa da + 127) / 255) }

/-! ## Compositing in numbers of 32 bits -/

/-- One channel of a composited color from the channels and alphas of both colors; `rest` is what
the source lets through and `total` the resulting alpha in 255ths of a level. -/
def composedChannel (s d sa da rest total : Nat) : Except Fault UInt8 := do
  let upper ← Extent.mul (← Extent.mul s sa) 255
  let lower ← Extent.mul (← Extent.mul d da) rest
  let value ← Extent.add upper lower
  Extent.toByte ((← Extent.add value (total / 2)) / total)

/-- A composited color, computed in numbers of 32 bits by the general formula alone. A number that
leaves their range on the way is a fault, and so is a result that is no byte. -/
def composed (source dest : Color) : Except Fault Color := do
  let sa := source.alpha.toNat
  let da := dest.alpha.toNat
  let rest ← Extent.sub 255 sa
  let total ← Extent.add (← Extent.mul sa 255) (← Extent.mul da rest)
  if total = 0 then
    return transparent
  else
    return {
      red := ← composedChannel source.red.toNat dest.red.toNat sa da rest total
      green := ← composedChannel source.green.toNat dest.green.toNat sa da rest total
      blue := ← composedChannel source.blue.toNat dest.blue.toNat sa da rest total
      alpha := ← Extent.toByte ((← Extent.add total 127) / 255) }

end Color

structure Scheme where
  background : Color
  foreground : Color
  deriving DecidableEq, Repr

namespace Scheme

def top : Scheme := ⟨.rgb 0xFA 0xB7 0xBC, .rgb 0xF5 0x6B 0x71⟩

def bottom : Scheme := ⟨.rgb 0x63 0x7D 0x36, .rgb 0xDF 0xDE 0x77⟩

end Scheme

end TwinScreen
