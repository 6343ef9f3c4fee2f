import TwinScreen.Arrangement

/-!
# Notices

What the program reports on the side while it works: each notice has a level and a text.
-/
namespace TwinScreen

/-- The rendering path an image is prepared for. -/
inductive Renderer where
  | software
  | openGl
  deriving DecidableEq, Repr

namespace Renderer

def label : Renderer → String
  | software => "Software"
  | openGl => "OpenGl"

end Renderer

inductive Level where
  | debug
  | info
  | warning
  deriving DecidableEq, Repr

namespace Level

def label : Level → String
  | debug => "DEBUG"
  | info => "INFO"
  | warning => "WARN"

end Level

inductive Notice where
  /-- The compositor was prepared for a renderer and an image size. -/
  | prepared (arrangement : Arrangement) (renderer : Renderer) (width height gap : Nat)
  /-- The screens of a diagnostic are being drawn. -/
  | drawing (summary : String)
  /-- A frame was not shown because it has another size than the surface. -/
  | dropped (width height : Nat)
  | screenshot (path : String)
  | settingsCreated (path : String)
  | settingsUnsaved (reason : String)
  | settingsUnreadable (path reason : String)
  deriving DecidableEq, Repr

namespace Notice

def level : Notice → Level
  | prepared .. => .debug
  | drawing _ | screenshot _ | settingsCreated _ => .info
  | dropped .. | settingsUnsaved _ | settingsUnreadable .. => .warning

def text : Notice → String
  | prepared a r w h gap =>
      "Screen layout " ++ a.name ++ " updated for " ++ r.label ++ s!": {w}x{h} (gap {gap})"
  | drawing summary => "Rendering error screen: " ++ summary
  | dropped w h => s!"Dropping {w}x{h} frame that doesn't match the window surface"
  | screenshot path => "Screenshot saved to " ++ path
  | settingsCreated path => "Created default error screen config at " ++ path
  | settingsUnsaved reason => "Could not save default error screen config: " ++ reason
  | settingsUnreadable path reason =>
      "Could not load error screen config from " ++ path ++ " (" ++ reason ++
        "), using defaults"

end Notice

end TwinScreen
