import TwinScreen.Pixmap.Draw
import TwinScreen.Text.Blank
import TwinScreen.Typeface.Coverage

/-!
# Setting type

A typesetter knows the tables of a font, the extents of its glyphs and their height in pixels. It
measures text, and draws it by compositing a color onto a pixmap with the coverage of its glyphs.
Lines of text stand one line height apart.
-/
namespace TwinScreen

open Typeface

structure Typesetter where
  tables : Tables
  extents : Extents
  height : Nat

structure TextSize where
  width : Nat
  height : Nat
  deriving DecidableEq, Repr

structure PlacedGlyph where
  outline : Outline
  /-- Where its base line starts. -/
  origin : Point

namespace Typesetter

def pixels (t : Typesetter) : Float32 := (UInt32.ofNat t.height).toFloat32

/-- Pixels per font unit. -/
def scale (t : Typesetter) : Float32 :=
  t.pixels / (unit t.extents.ascender - unit t.extents.descender)

def ascent (t : Typesetter) : Float32 := t.scale * unit t.extents.ascender

def lineHeight (t : Typesetter) : Float32 := t.pixels + t.scale * unit t.extents.lineGap

def advance (t : Typesetter) (glyph : Nat) : Float32 := t.scale * unit (t.tables.advance glyph)

def kerning (t : Typesetter) (left right : Nat) : Float32 :=
  t.scale * unit (t.tables.kerning left right)

/-- The pen position after moving from the previous glyph, if there is one, to the next. -/
def approach (t : Typesetter) (pen : Float32) (previous : Option Nat) (glyph : Nat) : Float32 :=
  match previous with
  | some left => pen + t.kerning left glyph
  | none => pen

/-- The pen position behind a line of text. -/
def advanceOver (t : Typesetter) (pen : Float32) (previous : Option Nat) : List Char → Float32
  | [] => pen
  | c :: more =>
      let glyph := t.tables.glyph c
      advanceOver t (t.approach pen previous glyph + t.advance glyph) (some glyph) more

/-- The smallest whole number of pixels that is not below a number; beyond the range, its nearer
end. Numbers from `2 ^ 23` on are whole. -/
def wholePixels (x : Float32) : Nat :=
  let n := x.toUInt32
  if n < 0x800000 ∧ n.toFloat32 < x then n.toNat + 1 else n.toNat

/-- Dimensions of lines of text: the width of the widest line and the height from the top of the
first to the bottom of the last line. -/
def measure (t : Typesetter) (text : List Char) : TextSize :=
  let lines := Text.lines text
  let widest := lines.foldl (fun w line => larger w (t.advanceOver 0 none line)) (0 : Float32)
  let height := t.pixels + t.lineHeight * Cells.number (lines.length - 1)
  ⟨wholePixels widest, wholePixels height⟩

def placeLine (t : Typesetter) (baseline pen : Float32) (previous : Option Nat) :
    List Char → List PlacedGlyph
  | [] => []
  | c :: more =>
      let glyph := t.tables.glyph c
      let start := t.approach pen previous glyph
      let others := placeLine t baseline (start + t.advance glyph) (some glyph) more
      match outline? t.tables glyph with
      | some outline => ⟨outline, ⟨start, baseline⟩⟩ :: others
      | none => others

/-- The glyphs of a text whose upper left corner lies at `(x, y)`. -/
def place (t : Typesetter) (text : List Char) (x y : Int) : List PlacedGlyph :=
  ((Text.lines text).zipIdx.map fun (line, i) =>
    t.placeLine (unit y + t.ascent + t.lineHeight * Cells.number i) (unit x) none line).flatten

end Typesetter

namespace PlacedGlyph

def whole (x : Float32) : Float32 := if x < 0 then ceil x else floor x

/-- The largest whole number up to `z` units from a position. -/
def edgeBelow (z : Int) (scale position : Float32) : Float32 :=
  floor (unit z * scale + (position - whole position)) + whole position

/-- The smallest whole number from `z` units from a position on. -/
def edgeAbove (z : Int) (scale position : Float32) : Float32 :=
  ceil (unit z * scale + (position - whole position)) + whole position

def corner (g : PlacedGlyph) (scale : Float32) : Point :=
  ⟨edgeBelow g.outline.left scale g.origin.x, edgeBelow g.outline.top (-scale) g.origin.y⟩

def opposite (g : PlacedGlyph) (scale : Float32) : Point :=
  ⟨edgeAbove g.outline.right scale g.origin.x, edgeAbove g.outline.bottom (-scale) g.origin.y⟩

/-- The outline in pixels, from the corner of the box. -/
def curves (g : PlacedGlyph) (scale : Float32) : List Curve :=
  let corner := g.corner scale
  let move (p : Point) : Point :=
    ⟨p.x * scale + (g.origin.x - corner.x), p.y * -scale + (g.origin.y - corner.y)⟩
  g.outline.curves.map fun
    | .line p q => .line (move p) (move q)
    | .quadratic p q r => .quadratic (move p) (move q) (move r)

/-- Column, row and coverage of every pixel of the box, counted from its corner. -/
def coverage (g : PlacedGlyph) (scale : Float32) : Except Fault (List (Nat × Nat × Float32)) := do
  let corner := g.corner scale
  let opposite := g.opposite scale
  let cells ← Cells.blank (opposite.x - corner.x).toUInt64.toNat
    (opposite.y - corner.y).toUInt64.toNat
  return (← (g.curves scale).foldlM Cells.addCurve cells).coverage

/-- The part of an alpha that a coverage lets through. -/
def inkAlpha (coverage : Float32) (alpha : UInt8) : UInt8 :=
  let share := if coverage < 0 then 0 else if 1 < coverage then 1 else coverage
  (nearest (share * alpha.toFloat32)).toUInt8

def ink (color : Color) (left top : Int) (column row : Nat) (coverage : Float32) :
    Step Pixmap Unit := do
  let alpha := inkAlpha coverage color.alpha
  if 0 < alpha then
    let x ← Offset.add left (Offset.ofSize column)
    let y ← Offset.add top (Offset.ofSize row)
    Pixmap.blend x y (color.withAlpha alpha)

def draw (g : PlacedGlyph) (scale : Float32) (color : Color) : Step Pixmap Unit := do
  let corner := g.corner scale
  let left := truncated corner.x
  let top := truncated corner.y
  (← g.coverage scale).forM fun (column, row, coverage) => ink color left top column row coverage

end PlacedGlyph

namespace Typesetter

def draw (t : Typesetter) (text : List Char) (x y : Int) (color : Color) : Step Pixmap Unit :=
  (t.place text x y).forM fun g => g.draw t.scale color

end Typesetter

end TwinScreen
