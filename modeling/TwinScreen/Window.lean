import TwinScreen.Frame

/-!
# Windows

A window shows the frame of the compositor, enlarged by a whole factor from 1 to 8.
-/
namespace TwinScreen

/-- How a window shows a frame. -/
structure Window where
  scale : Nat
  deriving DecidableEq, Repr

namespace Window

/-- Twice the size of the frame. -/
def standard : Window := ⟨2⟩

/-- The window with another factor, or the nearest one allowed. -/
def withScale (_ : Window) (scale : Nat) : Window := ⟨max 1 (min scale 8)⟩

/-- The size of the window for a frame. Of the frame's dimensions the lowest 32 bits count. -/
def size (w : Window) (width height : Nat) : Except Fault (Nat × Nat) := do
  return (← Extent.mul (Extent.ofSize width) w.scale, ← Extent.mul (Extent.ofSize height) w.scale)

def frameSize (c : Compositor) : Except Fault (Nat × Nat) := c.arrangement.size c.gap

end Window

end TwinScreen
