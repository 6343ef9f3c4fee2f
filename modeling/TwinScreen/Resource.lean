import TwinScreen.Font
import TwinScreen.Png.Decode
import TwinScreen.Resource.BodyFont
import TwinScreen.Resource.Icons
import TwinScreen.Resource.TitleFont
import TwinScreen.Screen

/-!
# Embedded resources

The fonts and icons that are part of the program. They are needed exactly when something about the
installation is broken, so one that cannot be read is a fault and not an error to be handled.
-/
namespace TwinScreen

structure Resource where
  name : String
  bytes : Array UInt8

namespace Resource

def titleFont : Resource := ⟨"error_title_font.ttf", titleFontBytes⟩

def bodyFont : Resource := ⟨"error_body_font.ttf", bodyFontBytes⟩

def errorIcon : Resource := ⟨"graphic_error.png", errorIconBytes⟩

def sorryIcon : Resource := ⟨"graphic_sorry.png", sorryIconBytes⟩

def font (r : Resource) (height : Nat) : Except Fault Font :=
  match Font.ofFile? r.bytes height with
  | some f => .ok f
  | none => .error (.brokenFont r.name)

def icon (r : Resource) : Except Fault Pixmap :=
  match Png.decode r.bytes with
  | .ok p => .ok p
  | .error (.flaw _) => .error (.brokenIcon r.name)
  | .error (.fault e) => .error e

end Resource

namespace Screen

def icon : Screen → Resource
  | top => .errorIcon
  | bottom => .sorryIcon

end Screen

end TwinScreen
