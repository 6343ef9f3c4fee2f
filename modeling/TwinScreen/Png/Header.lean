import TwinScreen.BigEndian
import TwinScreen.Checksum
import TwinScreen.Png.Samples

/-!
# The start of an image file

An image file is a signature and a sequence of chunks, each with its length, its name, its bytes and
a checksum. The first chunk gives the dimensions and the kind of samples.
-/
namespace TwinScreen.Png

open BigEndian

inductive Flaw where
  | malformed
  /-- The file ends before the image does. -/
  | cutShort
  /-- The colors are to be understood in an unknown way. -/
  | unknownColors
  | tooLarge
  deriving DecidableEq, Repr

inductive PixelKind where
  | gray
  | rgb
  | indexed
  | grayAlpha
  | rgba
  deriving DecidableEq, Repr

namespace PixelKind

def ofNumber? : Nat → Option PixelKind
  | 0 => some gray
  | 2 => some rgb
  | 3 => some indexed
  | 4 => some grayAlpha
  | 6 => some rgba
  | _ => none

def count : PixelKind → Nat
  | gray | indexed => 1
  | grayAlpha => 2
  | rgb => 3
  | rgba => 4

/-- Numbers of this many bits may be stored for such pixels. -/
def allows (kind : PixelKind) (depth : Nat) : Bool :=
  match kind with
  | gray => [1, 2, 4, 8, 16].contains depth
  | indexed => [1, 2, 4, 8].contains depth
  | rgb | grayAlpha | rgba => [8, 16].contains depth

end PixelKind

/-- The first chunk. -/
structure Header where
  width : Nat
  height : Nat
  /-- Bits per stored number. -/
  depth : Nat
  kind : PixelKind
  interlaced : Bool
  deriving DecidableEq, Repr

namespace Header

def pixelBits (h : Header) : Nat := h.kind.count * h.depth

def pixelBytes (h : Header) : Nat := (h.pixelBits + 7) / 8

def rowBytes (h : Header) (width : Nat) : Nat := (width * h.pixelBits + 7) / 8

def ofBytes? (data : Array UInt8) : Option Header := do
  let width ← long? data 0
  let height ← long? data 4
  let depth ← byte? data 8
  let kind ← PixelKind.ofNumber? (← byte? data 9)
  let compression ← byte? data 10
  let filter ← byte? data 11
  let interlace ← byte? data 12
  if width = 0 ∨ height = 0 ∨ !kind.allows depth then none
  if compression ≠ 0 ∨ filter ≠ 0 ∨ 1 < interlace then none
  return { width, height, depth, kind, interlaced := interlace == 1 }

/-- What the samples are as they are handed out. -/
def channels (h : Header) (transparent : Bool) : Channels :=
  match h.kind with
  | .gray => if transparent then .grayAlpha else .gray
  | .grayAlpha => .grayAlpha
  | .rgb | .indexed => if transparent then .rgba else .rgb
  | .rgba => .rgba

end Header

/-! ## Chunks -/

/-- The first eight bytes of a file. -/
def signature : List UInt8 := [0x89, 0x50, 0x4E, 0x47, 0x0D, 0x0A, 0x1A, 0x0A]

/-- The name of the header chunk, `IHDR`, as a number. -/
def headerTag : Nat := 0x49484452

/-- `IDAT`. -/
def dataTag : Nat := 0x49444154

/-- `IEND`. -/
def endTag : Nat := 0x49454E44

/-- A chunk may be left out if the first letter of its name is small. -/
def isOptional (tag : Nat) : Bool := tag.testBit 29

/-- The length and the name of the chunk at a position. -/
def chunkHead? (file : Array UInt8) (position : Nat) : Option (Nat × Nat) := do
  return (← long? file position, ← long? file (position + 4))

/-- The checksum behind a chunk agrees with its name and its `length` bytes. -/
def checksumAgrees (file : Array UInt8) (position length : Nat) : Bool :=
  long? file (position + 8 + length) ==
    some (Checksum.crc32Array (file.extract (position + 4) (position + 8 + length))).toNat

/-- Compares the start of a file with the signature, four bytes at a time. -/
def checkSignature (file : Array UInt8) : Except Flaw Unit :=
  if file.size < 4 then .error .cutShort
  else if (file.extract 0 4).toList ≠ signature.take 4 then .error .malformed
  else if file.size < 8 then .error .cutShort
  else if (file.extract 4 8).toList ≠ signature.drop 4 then .error .malformed
  else .ok ()

/-- Reads the header chunk, which must come first. -/
def readHeader (file : Array UInt8) : Except Flaw Header :=
  match chunkHead? file 8 with
  | none => .error .cutShort
  | some (length, tag) =>
      if tag ≠ headerTag ∨ length ≠ 13 then .error .malformed
      else if file.size < 20 + length then .error .cutShort
      else if !checksumAgrees file 8 length then .error .malformed
      else
        match Header.ofBytes? (file.extract 16 29) with
        | some h => .ok h
        | none => .error .malformed

end TwinScreen.Png
