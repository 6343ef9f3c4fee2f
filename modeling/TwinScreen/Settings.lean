import TwinScreen.Compositor
import TwinScreen.Text.Paragraph

/-!
# Settings

What the user may choose: the sizes of fonts and margins, how body text is filled into lines, the
colors of both screens, and how the screens are arranged. Each group has standard values of its
own.
-/
namespace TwinScreen

/-- Heights of the fonts and the width of the margin, in pixels. -/
structure Sizes where
  title : UInt32
  body : UInt32
  margin : UInt32
  deriving DecidableEq, Repr

namespace Sizes

def standard : Sizes := ⟨14, 12, 8⟩

/-- The margin as a pixel coordinate. A margin as wide as a screen already moves everything off it,
so a wider one counts as that. -/
def marginOffset (s : Sizes) : Int := min s.margin.toNat screenWidth

end Sizes

/-- How body text is filled into lines. -/
structure Wrapping where
  /-- Line width in narrow characters. -/
  lineWidth : UInt64
  /-- Weight of a wide glyph, as a percentage of a narrow one. -/
  wideGlyphWidth : UInt32
  /-- Largest number of lines; 0 sets no limit. -/
  maxLines : UInt64
  deriving DecidableEq, Repr

namespace Wrapping

def standard : Wrapping := ⟨44, 150, 0⟩

def measure (w : Wrapping) : Text.Measure :=
  { lineWidth := w.lineWidth.toNat
    wideGlyphWidth := w.wideGlyphWidth.toNat
    maxLines := w.maxLines.toNat }

end Wrapping

structure Schemes where
  top : Scheme
  bottom : Scheme
  deriving DecidableEq, Repr

namespace Schemes

def standard : Schemes := ⟨.top, .bottom⟩

def of (s : Schemes) : Screen → Scheme
  | .top => s.top
  | .bottom => s.bottom

end Schemes

/-- How the screens are arranged. -/
structure Placement where
  arrangement : Arrangement
  /-- Pixels between the screens. -/
  gap : UInt64
  deriving DecidableEq, Repr

namespace Placement

def standard : Placement := ⟨.topBottom, 0⟩

def compositor (p : Placement) : Compositor := .new p.arrangement p.gap.toNat

end Placement

structure Settings where
  sizes : Sizes
  wrapping : Wrapping
  schemes : Schemes
  placement : Placement
  deriving DecidableEq, Repr

namespace Settings

def standard : Settings := ⟨.standard, .standard, .standard, .standard⟩

end Settings

end TwinScreen
