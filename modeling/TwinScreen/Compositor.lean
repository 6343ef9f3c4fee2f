import TwinScreen.Notice
import TwinScreen.Pixmap.Draw

/-!
# The compositor

The compositor keeps the image in which both screens are combined. A change of the arrangement or
of the gap leaves it stale; it must then be prepared for a renderer, which makes a new image of the
right size, before screens can be combined again.
-/
namespace TwinScreen

/-- The image of both screens and how it is arranged. -/
structure Compositor where
  arrangement : Arrangement
  /-- Pixels between the screens. -/
  gap : Nat
  /-- The renderer it was last prepared for. -/
  renderer : Option Renderer
  /-- It must be prepared before the next combination. -/
  stale : Bool
  image : Pixmap

namespace Compositor

/-- The color of the image where no screen is. -/
def clearColor : Color := Color.black

def new (arrangement : Arrangement) (gap : Nat) : Compositor :=
  { arrangement, gap, renderer := none, stale := true, image := ⟨0, 0, #[]⟩ }

def setArrangement (c : Compositor) (arrangement : Arrangement) : Compositor :=
  if arrangement = c.arrangement then c else { c with arrangement, stale := true }

def setGap (c : Compositor) (gap : Nat) : Compositor :=
  if gap = c.gap then c else { c with gap, stale := true }

/-- A step on the image alone. -/
def onImage {α : Type} (step : Step Pixmap α) : Step Compositor α :=
  step.within image fun c image => { c with image }

/-- Makes a new image for the present arrangement and gap. -/
def prepare (renderer : Renderer) : Step Compositor Notice := do
  let c ← get
  let (width, height) ← c.arrangement.size c.gap
  let image ← Pixmap.create width height clearColor
  set { c with image, renderer := some renderer, stale := false }
  return .prepared c.arrangement renderer width height c.gap

def clear : Step Compositor Unit := onImage (Pixmap.fill clearColor)

def place (screen : Pixmap) : Option (Nat × Nat) → Step Compositor Unit
  | some (x, y) => onImage (screen.copy x y)
  | none => return ()

def combine (top bottom : Pixmap) : Step Compositor Unit := do
  let c ← get
  if c.stale then throw .unprepared
  if !top.isScreen then throw .topScreenSize
  if !bottom.isScreen then throw .bottomScreenSize
  let origins ← c.arrangement.origins c.gap
  place top origins.top
  place bottom origins.bottom

end Compositor

end TwinScreen
