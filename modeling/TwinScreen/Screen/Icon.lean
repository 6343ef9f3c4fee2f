import TwinScreen.Screen
import TwinScreen.Pixmap.Draw

/-!
# Icons

An icon stands in one of the lower corners of a screen, the same distance from both edges.
-/
namespace TwinScreen

inductive Corner where
  | bottomLeft
  | bottomRight
  deriving DecidableEq, Repr

namespace Corner

def label : Corner → String
  | bottomLeft => "BottomLeft"
  | bottomRight => "BottomRight"

end Corner

namespace Screen

def iconCorner : Screen → Corner
  | top => .bottomRight
  | bottom => .bottomLeft

end Screen

namespace Pixmap

def iconX (icon : Pixmap) (corner : Corner) (margin : Int) (target : Pixmap) : Except Fault Int :=
  match corner with
  | .bottomLeft => .ok margin
  | .bottomRight => Offset.sub (Offset.ofSize (target.width - icon.width)) margin

def iconY (icon : Pixmap) (margin : Int) (target : Pixmap) : Except Fault Int :=
  Offset.sub (Offset.ofSize (target.height - icon.height)) margin

/-- Composites an icon in a corner, `margin` pixels from both edges. The icon must be narrower and
shorter than the target. -/
def drawIcon (icon : Pixmap) (corner : Corner) (margin : Int) : Step Pixmap Unit := do
  let target ← get
  if target.width ≤ icon.width then throw (.iconTooWide icon.width target.width)
  if target.height ≤ icon.height then throw (.iconTooTall icon.height target.height)
  let x ← iconX icon corner margin target
  let y ← iconY icon margin target
  draw icon x y

end Pixmap

end TwinScreen
