import TwinScreen.Bounds
import TwinScreen.Text.Atom

/-!
# Filling lines

Text is refilled into lines of at most a given weight. Every line of the text becomes a block of
one or more output lines: an atom stays on the current output line as long as the line still fits
with it, a heavier atom gets an output line of its own, and the blank characters at a break are
dropped. A cap on the number of output lines cuts the text off after the last line that is allowed.
-/
namespace TwinScreen.Text

/-- How text is filled into lines. -/
structure Measure where
  /-- Line width in narrow characters. -/
  lineWidth : Nat
  /-- Weight of a wide glyph, as a percentage of a narrow one. -/
  wideGlyphWidth : Nat
  /-- Largest number of output lines; 0 sets no limit. -/
  maxLines : Nat
  deriving DecidableEq, Repr

namespace Measure

/-- The largest weight a line of several atoms may have. -/
def budget (m : Measure) : Nat := Size.saturatingMul m.lineWidth narrowWeight

/-- No further line may be opened after this many. -/
def reached (m : Measure) (opened : Nat) : Bool := 0 < m.maxLines && m.maxLines ≤ opened

end Measure

/-- The weight of a line as a size. -/
def lineWeight (wide : Nat) (line : List Char) : Except Fault Nat := Size.fit (weight wide line)

/-- Room for the filled form of a text of `length` bytes. A break replaces blank characters or
stands next to a glyph of three bytes, so half of the length again is always enough. -/
def wrappedCapacity (length : Nat) : Except Fault Nat := Size.add length (length / 2)

def utf8Length : List Char → Nat
  | [] => 0
  | c :: rest => c.utf8Size + utf8Length rest

/-- The output lines of one line of the text, or what is still to come of them. -/
structure Block where
  /-- The first line, or the rest of the line being filled. -/
  first : List Char
  /-- The lines below it. -/
  later : List (List Char)
  /-- Lines opened so far, over the whole text. -/
  opened : Nat
  /-- The cap was reached before the last atom was placed. -/
  cut : Bool
  deriving DecidableEq, Repr

namespace Block

def lines (b : Block) : List (List Char) := b.first :: b.later

def push (b : Block) (s : List Char) : Block := { b with first := s ++ b.first }

/-- The block with a line break in front. -/
def breakBefore (b : Block) : Block := { b with first := [], later := b.lines }

end Block

/-- Places the trailing blank characters on a line that weighs `w`, if they fit. -/
def fillTrailing (m : Measure) (opened w : Nat) (trailing : List Char) : Except Fault Block := do
  let total ← Size.add w (← lineWeight m.wideGlyphWidth trailing)
  return { first := if total ≤ m.budget then trailing else [], later := [], opened, cut := false }

/-- Places atoms on a line that weighs `w` and on the lines below it. -/
def fillAtoms (m : Measure) (opened w : Nat) (trailing : List Char) :
    List Atom → Except Fault Block
  | [] => fillTrailing m opened w trailing
  | a :: more => do
      let leadWeight ← lineWeight m.wideGlyphWidth a.lead
      let textWeight ← lineWeight m.wideGlyphWidth a.text
      let total ← Size.add (← Size.add w leadWeight) textWeight
      if total ≤ m.budget then
        return (← fillAtoms m opened total trailing more).push (a.lead ++ a.text)
      else if m.reached opened then
        return { first := [], later := [], opened, cut := true }
      else
        let next ← Size.add opened 1
        return ((← fillAtoms m next textWeight trailing more).push a.text).breakBefore

/-- The block of one line of the text, whose first output line is already counted in `opened`.
Leading blank characters survive where they fit on it together with the first atom. -/
def fillLine (m : Measure) (opened : Nat) (line : List Char) : Except Fault Block :=
  match atoms line with
  | ([], trailing) => fillTrailing m opened 0 trailing
  | (a :: more, trailing) => do
      let leadWeight ← lineWeight m.wideGlyphWidth a.lead
      let textWeight ← lineWeight m.wideGlyphWidth a.text
      let total ← Size.add leadWeight textWeight
      if total ≤ m.budget then
        return (← fillAtoms m opened total trailing more).push (a.lead ++ a.text)
      else
        return (← fillAtoms m opened textWeight trailing more).push a.text

/-- The output lines of several lines of the text. -/
def fillLines (m : Measure) (opened : Nat) : List (List Char) → Except Fault (List (List Char))
  | [] => return []
  | line :: others =>
      if m.reached opened then
        return []
      else do
        let block ← fillLine m (← Size.add opened 1) line
        if block.cut then
          return block.lines
        else
          return block.lines ++ (← fillLines m block.opened others)

/-- Text filled into lines. Line feeds of the text are kept as breaks. The room for a text of more
than two thirds of `Size.bytesMax` bytes is more than any buffer has (`Fault.capacity`); this fault
is left out, and such texts are filled like any others. -/
def wrap (m : Measure) (text : List Char) : Except Fault (List Char) := do
  let _ ← wrappedCapacity (utf8Length text)
  return unlines (← fillLines m 0 (lines text))

end TwinScreen.Text
