import TwinScreen.Typesetter

/-!
# Fonts

A font is a readable font file at a height in pixels. A font file can be readable although the
extents of its glyphs cannot be used: then every use of the font is a fault, other than measuring
the empty text.
-/
namespace TwinScreen

open Typeface

structure Font where
  tables : Tables
  height : Nat

namespace Font

def ofFile? (file : Array UInt8) (height : Nat) : Option Font := do
  return { tables := ← Tables.ofFile? file, height }

def typesetter (f : Font) : Except Fault Typesetter := do
  return { tables := f.tables, extents := ← f.tables.extents, height := f.height }

def lineHeight (f : Font) : Except Fault Float32 := do
  return (← f.typesetter).lineHeight

/-- Dimensions of a text. The empty text has none, whatever the font. -/
def measure (f : Font) (text : List Char) : Except Fault TextSize :=
  if text.isEmpty then .ok ⟨0, 0⟩ else do return (← f.typesetter).measure text

def draw (f : Font) (text : List Char) (x y : Int) (color : Color) : Step Pixmap Unit := do
  (← f.typesetter).draw text x y color

def describe (f : Font) : String := s!"Font \x7b pixel_height: {f.height}, .. \x7d"

end Font

end TwinScreen
