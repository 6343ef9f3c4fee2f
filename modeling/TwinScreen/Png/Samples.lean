import TwinScreen.Pixmap

/-!
# Samples of images

An image file stores one to four samples per pixel: gray, gray and alpha, colors, or colors and
alpha. As a pixmap, gray stands for all three colors, and a pixel without alpha is opaque.
-/
namespace TwinScreen.Png

inductive Channels where
  | gray
  | grayAlpha
  | rgb
  | rgba
  deriving DecidableEq, Repr

namespace Channels

def count : Channels → Nat
  | gray => 1
  | grayAlpha => 2
  | rgb => 3
  | rgba => 4

/-- Channel `c` (red, green, blue, alpha) of the pixel whose samples are at number `i`. -/
def expand (channels : Channels) (data : Array UInt8) (i c : Nat) : UInt8 :=
  match channels with
  | gray => if c < 3 then data.getD i 0 else 255
  | grayAlpha => if c < 3 then data.getD (2 * i) 0 else data.getD (2 * i + 1) 0
  | rgb => if c < 3 then data.getD (3 * i + c) 0 else 255
  | rgba => data.getD (4 * i + c) 0

end Channels

/-- The samples of an image, 8 bits each, row by row. -/
structure Samples where
  width : Nat
  height : Nat
  channels : Channels
  data : Array UInt8

namespace Samples

def expanded (s : Samples) : Array UInt8 :=
  Array.ofFn (n := 4 * (s.data.size / s.channels.count)) fun i =>
    s.channels.expand s.data (i / 4) (i % 4)

def toPixmap (s : Samples) : Except Fault Pixmap := Pixmap.ofBytes s.width s.height s.expanded

end Samples

end TwinScreen.Png
