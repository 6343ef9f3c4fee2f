import TwinScreen.Bounds
import TwinScreen.Color
import TwinScreen.Step

/-!
# Pixmaps

A pixmap is a rectangle of colors. Its rows follow each other from top to bottom, its pixels from
left to right, and every pixel takes four bytes: red, green, blue, alpha. A pixmap is valid when it
has exactly the bytes that its width and height ask for; all positions in a valid pixmap are sizes.
-/
namespace TwinScreen

def pixelBytes : Nat := 4

structure Pixmap where
  width : Nat
  height : Nat
  /-- The channels of all pixels, row by row. -/
  bytes : Array UInt8
  deriving DecidableEq

/-- `count` bytes of `data` from position `start` on. -/
def sliceBytes (data : Array UInt8) (start count : Nat) : Except Fault (List UInt8) := do
  let stop ← Size.add start count
  if stop ≤ data.size then return (data.extract start stop).toList else throw .outOfRange

/-- The data with some of its bytes replaced, from position `start` on. -/
def writeBytes (data : Array UInt8) (start : Nat) : List UInt8 → Array UInt8
  | [] => data
  | b :: rest => writeBytes (data.setIfInBounds start b) (start + 1) rest

@[simp] theorem size_writeBytes (data : Array UInt8) (start : Nat) (values : List UInt8) :
    (writeBytes data start values).size = data.size := by
  induction values generalizing data start with
  | nil => rfl
  | cons b rest ih => simp [writeBytes, ih]

namespace Pixmap

/-- The bytes are those that the dimensions ask for, and they can be addressed. -/
structure Valid (p : Pixmap) : Prop where
  size_eq : p.bytes.size = p.width * p.height * pixelBytes
  size_le : p.bytes.size ≤ Size.bytesMax

def create (width height : Nat) (fill : Color) : Except Fault Pixmap := do
  let count ← Size.mul width height
  if pixelBytes * count ≤ Size.bytesMax then
    return { width, height, bytes := Array.ofFn (n := count * pixelBytes) fun i => fill.byte i }
  else throw .capacity

def ofBytes (width height : Nat) (bytes : Array UInt8) : Except Fault Pixmap := do
  let expected ← Size.mul (← Size.mul width height) pixelBytes
  if bytes.size = expected then return { width, height, bytes }
  else throw (.dataLength width height)

def stride (p : Pixmap) : Except Fault Nat := Size.mul p.width pixelBytes

def offset (p : Pixmap) (x y : Nat) : Except Fault Nat := do
  Size.add (← Size.mul y (← p.stride)) (← Size.mul x pixelBytes)

/-- A pixel position must lie inside the pixmap. -/
def checkInside (p : Pixmap) (x y : Nat) : Except Fault Unit :=
  if p.width ≤ x then .error (.columnOutside x)
  else if p.height ≤ y then .error (.rowOutside y)
  else .ok ()

def pixel (p : Pixmap) (x y : Nat) : Except Fault Color := do
  p.checkInside x y
  match ← sliceBytes p.bytes (← p.offset x y) pixelBytes with
  | [red, green, blue, alpha] => return { red, green, blue, alpha }
  | _ => throw .outOfRange

def row (p : Pixmap) (y : Nat) : Except Fault (List UInt8) := do
  let stride ← p.stride
  sliceBytes p.bytes (← Size.mul y stride) stride

/-- Replaces some bytes, which must all lie in the data. -/
def write (start : Nat) (values : List UInt8) : Step Pixmap Unit := fun p =>
  match Size.add start values.length with
  | .error e => .error e p
  | .ok stop =>
      if stop ≤ p.bytes.size then
        .ok () { p with bytes := writeBytes p.bytes start values }
      else .error .outOfRange p

def setPixel (x y : Nat) (color : Color) : Step Pixmap Unit := do
  let p ← get
  p.checkInside x y
  write (← p.offset x y) color.bytes

def fill (color : Color) : Step Pixmap Unit :=
  modify fun p => { p with bytes := p.bytes.mapIdx fun i _ => color.byte i }

def poke (position : Nat) (value : UInt8) : Step Pixmap Unit := fun p =>
  if position < p.bytes.size then
    .ok () { p with bytes := p.bytes.setIfInBounds position value }
  else .error .outOfRange p

def describe (p : Pixmap) : String :=
  s!"PixelBuffer \x7b width: {p.width}, height: {p.height}, .. \x7d"

end Pixmap

end TwinScreen
