import TwinScreen.Compositor

/-!
# Frames

A finished image leaves the program as a frame: rows of pixels that start a fixed number of bytes
apart. A recorder keeps a copy of the latest frame and counts all of them; a surface is the memory
of a window and takes only frames of its own size.
-/
namespace TwinScreen

/-- Rows of pixels, `pitch` bytes apart. -/
structure Frame where
  bytes : Array UInt8
  width : Nat
  height : Nat
  pitch : Nat
  deriving DecidableEq

namespace Frame

/-- A pixmap as a frame, its rows without a space between them. -/
def ofPixmap (p : Pixmap) : Except Fault Frame := do
  return { bytes := p.bytes, width := p.width, height := p.height, pitch := ← p.stride }

/-- The pixels of a row, without what may follow them. -/
def row (f : Frame) (y : Nat) : Except Fault (List UInt8) := do
  let start ← Size.mul y f.pitch
  sliceBytes f.bytes start (← Size.mul f.width pixelBytes)

end Frame

/-- The latest frame and the number of frames. -/
structure Recorder where
  latest : Option Pixmap
  count : Nat

namespace Recorder

def empty : Recorder := ⟨none, 0⟩

/-- Copies one row of a frame to its place behind the rows above, each of `stride` bytes. -/
def copyRow (f : Frame) (stride y : Nat) : Step Pixmap Unit := do
  let p ← get
  let start ← Size.mul y stride
  let stop ← Size.mul (y + 1) stride
  if p.bytes.size < stop then throw .outOfRange
  Pixmap.write start (← f.row y)

/-- Copies all rows of a frame. Their length must be a size, also where there is no row at all. -/
def copyRows (f : Frame) : Step Pixmap Unit := do
  let stride ← (← get).stride
  (List.range f.height).forM (copyRow f stride)

/-- The pixmap that will hold a frame: the one at hand if it has the right size. -/
def canvas (latest : Option Pixmap) (f : Frame) : Except Fault Pixmap :=
  match latest with
  | some p =>
      if p.width = f.width ∧ p.height = f.height then .ok p
      else Pixmap.create f.width f.height Color.transparent
  | none => Pixmap.create f.width f.height Color.transparent

/-- Holds a copy of a frame. While it is being made nothing is held. -/
def hold (f : Frame) : Step Recorder Unit := fun r =>
  let away : Recorder := { r with latest := none }
  match canvas r.latest f with
  | .error e => .error e away
  | .ok p =>
      match copyRows f p with
      | .error e _ => .error e away
      | .ok () copy => .ok () { r with latest := some copy }

/-- Records a frame: holds a copy of it, then counts it. -/
def record (f : Frame) : Step Recorder Unit := do
  hold f
  let r ← get
  let count ← Size.add r.count 1
  set { r with count }

def take : Step Recorder (Option Pixmap) :=
  modifyGet fun r => (r.latest, { r with latest := none })

end Recorder

/-- The memory of a window. -/
abbrev Surface : Type := Array UInt8

namespace Surface

def copyRows (f : Frame) (rowBytes : Nat) : Step Surface Unit := do
  let surface ← get
  (List.range (surface.size / rowBytes)).forM fun y => do
    let row ← f.row y
    modify fun s => writeBytes s (y * rowBytes) row

/-- Shows a frame; one that does not fill the surface exactly is dropped with a notice. -/
def present (f : Frame) : Step Surface (List Notice) := do
  let surface ← get
  let rowBytes ← Size.mul f.width pixelBytes
  let total ← Size.mul rowBytes f.height
  if surface.size ≠ total then
    return [.dropped f.width f.height]
  else if rowBytes = 0 then
    throw .emptyRow
  else
    copyRows f rowBytes
    return []

end Surface

end TwinScreen
