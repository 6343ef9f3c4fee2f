import TwinScreen.Resource
import TwinScreen.Screen.Icon
import TwinScreen.Settings

/-!
# Drawing a screen

A screen is painted in this order, later parts over earlier ones: the background, the icon in its
corner, the title centered at the top, the body text below it, and on the bottom screen a closing
line in the lower right corner. Everything keeps the margin.
-/
namespace TwinScreen

structure Fonts where
  title : Font
  body : Font

namespace Fonts

def load (sizes : Sizes) : Except Fault Fonts := do
  let title ← Resource.titleFont.font sizes.title.toNat
  return { title, body := ← Resource.bodyFont.font sizes.body.toNat }

end Fonts

namespace Screen

/-- The left edge of a title, half of the free width from the edge of the screen. -/
def titleLeft (title : TextSize) : Except Fault Int := do
  let free ← Offset.sub screenWidth (Offset.ofSize title.width)
  return free.tdiv 2

/-- The upper edge of the body text below a title. -/
def bodyTop (margin : Int) (title : TextSize) : Except Fault Int := do
  Offset.add (Offset.ofSize title.height) (← Offset.mul margin 2)

def thanksLeft (margin : Int) (line : TextSize) : Except Fault Int := do
  Offset.sub (← Offset.sub screenWidth (Offset.ofSize line.width)) margin

def thanksTop (margin : Int) (line : TextSize) : Except Fault Int := do
  Offset.sub (← Offset.sub screenHeight (Offset.ofSize line.height)) margin

def drawTitle (title : List Char) (font : Font) (margin : Int) (color : Color) :
    Step Pixmap Unit := do
  let left ← titleLeft (← font.measure title)
  font.draw title left margin color

def drawThanks (font : Font) (margin : Int) (color : Color) : Step Pixmap Unit := do
  let line := thanks.toList
  let size ← font.measure line
  let left ← thanksLeft margin size
  let top ← thanksTop margin size
  font.draw line left top color

def paint (screen : Screen) (text : List Char) (icon : Pixmap) (fonts : Fonts)
    (settings : Settings) : Step Pixmap Unit := do
  let margin := settings.sizes.marginOffset
  let color := (settings.schemes.of screen).foreground
  let title := screen.title.toList
  Pixmap.drawIcon icon screen.iconCorner margin
  drawTitle title fonts.title margin color
  let wrapped ← Text.wrap settings.wrapping.measure text
  let top ← bodyTop margin (← fonts.title.measure title)
  fonts.body.draw wrapped margin top color
  if screen = bottom then
    drawThanks fonts.body margin color

def draw (screen : Screen) (text : List Char) (icon : Pixmap) (fonts : Fonts)
    (settings : Settings) : Except Fault Pixmap := do
  let blank ← Pixmap.screen (settings.schemes.of screen).background
  return (← (paint screen text icon fonts settings).result blank).2

def drawEmbedded (screen : Screen) (text : List Char) (fonts : Fonts) (settings : Settings) :
    Except Fault Pixmap := do
  draw screen text (← screen.icon.icon) fonts settings

end Screen

end TwinScreen
