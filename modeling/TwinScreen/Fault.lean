/-!
# Faults

An operation that cannot give its result stops with a `Fault`: a number that leaves its range, a
slice outside its data, a buffer too large to exist, or a broken precondition. Each precondition
has a constructor of its own that carries the numbers its message names.
-/
namespace TwinScreen

/-- Why an operation stopped. -/
inductive Fault where
  /-- A sum, difference or product left the range of its kind of number. -/
  | overflow
  /-- A slice does not lie inside its data. -/
  | outOfRange
  /-- A buffer would take more bytes than can be addressed. -/
  | capacity
  /-- A pixel column at or right of the right edge. -/
  | columnOutside (x : Nat)
  /-- A pixel row at or below the bottom edge. -/
  | rowOutside (y : Nat)
  /-- Pixel data of another length than its dimensions ask for. -/
  | dataLength (width height : Nat)
  /-- A pixmap to be copied reaches over the edge of its target. -/
  | doesNotFit (width height x y targetWidth targetHeight : Nat)
  /-- The compositor was not prepared after its last change. -/
  | unprepared
  | topScreenSize
  | bottomScreenSize
  | iconTooWide (icon target : Nat)
  | iconTooTall (icon target : Nat)
  /-- A surface cannot be divided into rows of no bytes. -/
  | emptyRow
  | brokenFont (name : String)
  | brokenIcon (name : String)
  deriving DecidableEq, Repr

namespace Fault

/-- The text of a broken precondition; the faults of arithmetic and memory have none. -/
def message? : Fault → Option String
  | overflow | outOfRange | capacity => none
  | columnOutside x => some s!"X coordinate {x} out of bounds"
  | rowOutside y => some s!"Y coordinate {y} out of bounds"
  | dataLength w h => some s!"RGBA data must be exactly {w}×{h} pixels"
  | doesNotFit w h x y tw th =>
      some s!"{w}×{h} buffer doesn't fit at ({x}, {y}) in a {tw}×{th} buffer"
  | unprepared => some "Screen layout must be updated before combining"
  | topScreenSize => some "Top screen must be 256×192"
  | bottomScreenSize => some "Bottom screen must be 256×192"
  | iconTooWide icon target =>
      some s!"Icon is {icon} pixels wide but must be narrower than the {target}-pixel screen"
  | iconTooTall icon target =>
      some s!"Icon is {icon} pixels tall but must be shorter than the {target}-pixel screen"
  | emptyRow => some "chunk size must be non-zero"
  | brokenFont name =>
      some s!"Embedded font {name} failed to load: Invalid font data: InvalidFont"
  | brokenIcon name => some s!"Embedded icon {name} failed to load: PNG decoding error"

end Fault

end TwinScreen
