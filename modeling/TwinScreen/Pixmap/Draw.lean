import TwinScreen.Pixmap

/-!
# Drawing on pixmaps

Colors and pixmaps are composited onto a pixmap at signed positions; what falls outside is clipped.
Copying replaces a rectangle instead, and refuses a source that does not fit.
-/
namespace TwinScreen.Pixmap

/-- Composites a color onto a pixel; a position outside the pixmap is ignored. -/
def blend (x y : Int) (color : Color) : Step Pixmap Unit := do
  let p ← get
  if x < 0 ∨ y < 0 ∨ p.width ≤ x.toNat ∨ p.height ≤ y.toNat then
    return ()
  else
    let below ← p.pixel x.toNat y.toNat
    setPixel x.toNat y.toNat (color.onto below)

def drawRow (image : Pixmap) (x y : Int) (row : Nat) : Step Pixmap Unit :=
  (List.range image.width).forM fun column => do
    let targetX ← Offset.add x (Offset.ofSize column)
    let targetY ← Offset.add y (Offset.ofSize row)
    blend targetX targetY (← image.pixel column row)

/-- Composites an image whose upper left corner lies at `(x, y)`. -/
def draw (image : Pixmap) (x y : Int) : Step Pixmap Unit :=
  (List.range image.height).forM (drawRow image x y)

def copyRow (source : Pixmap) (x y : Nat) (row : Nat) : Step Pixmap Unit := do
  let p ← get
  let start ← p.offset x (← Size.add y row)
  write start (← source.row row)

/-- Copies a source to the rectangle whose upper left corner lies at `(x, y)`. -/
def copy (source : Pixmap) (x y : Nat) : Step Pixmap Unit := do
  let p ← get
  let misfit :=
    Fault.doesNotFit source.width source.height x y p.width p.height
  let right ← Size.add x source.width
  if p.width < right then throw misfit
  let below ← Size.add y source.height
  if p.height < below then throw misfit
  (List.range source.height).forM (copyRow source x y)

end TwinScreen.Pixmap
