import TwinScreen.Pixmap

/-!
# Screens

The two screens of the handheld and the pixmaps of their size. The top screen says what went wrong,
the bottom screen what can be done about it.
-/
namespace TwinScreen

def screenWidth : Nat := 256

def screenHeight : Nat := 192

inductive Screen where
  | top
  | bottom
  deriving DecidableEq, Repr

namespace Screen

def title : Screen → String
  | top => "Oh no! duoscreen couldn't start..."
  | bottom => "Here's what you can do:"

def thanks : String := "Thank you for using duoscreen!"

end Screen

namespace Pixmap

def screen (fill : Color) : Except Fault Pixmap := create screenWidth screenHeight fill

def isScreen (p : Pixmap) : Bool := p.width == screenWidth && p.height == screenHeight

end Pixmap

end TwinScreen
