import TwinScreen.Deflate.Stored
import TwinScreen.Pixmap
import TwinScreen.Png.Header

/-!
# Writing image files

A pixmap is written with its four channels of 8 bits each, without filters, without compression and
not interlaced. The image data is spread over chunks of at most a mebibyte.
-/
namespace TwinScreen.Png

inductive EncodeError where
  | empty
  /-- Its bytes are not those that its written dimensions ask for. -/
  | wrongSize
  deriving DecidableEq, Repr

/-- A chunk: the length of its bytes, its name, the bytes and a checksum. -/
def chunk (tag : Nat) (bytes : List UInt8) : List UInt8 :=
  let body := BigEndian.longBytes tag ++ bytes
  BigEndian.longBytes bytes.length ++ body ++ BigEndian.longBytes (Checksum.crc32 body).toNat

def headerBytes (width height : Nat) : List UInt8 :=
  BigEndian.longBytes width ++ BigEndian.longBytes height ++ [8, 6, 0, 0, 0]

/-- The rows of a pixmap, each behind the number of its filter. -/
def filteredRows (p : Pixmap) : List UInt8 :=
  let stride := p.width * pixelBytes
  (List.range p.height).flatMap fun y =>
    0 :: (p.bytes.extract (y * stride) ((y + 1) * stride)).toList

def dataMax : Nat := 0x100000

def dataChunks (bytes : List UInt8) : List UInt8 :=
  if _h : bytes.length ≤ dataMax then chunk dataTag bytes
  else chunk dataTag (bytes.take dataMax) ++ dataChunks (bytes.drop dataMax)
termination_by bytes.length
decreasing_by
  simp only [List.length_drop, dataMax] at *
  omega

def endChunk : List UInt8 := chunk endTag []

/-- What has been written of a file when the dimensions turn out to be none. -/
def abandoned : Array UInt8 := endChunk.toArray

/-- The file of a pixmap. Of its dimensions the lowest 32 bits are written. -/
def encode (p : Pixmap) : Except EncodeError (Array UInt8) :=
  let width := Extent.ofSize p.width
  let height := Extent.ofSize p.height
  if width = 0 ∨ height = 0 then .error .empty
  else if p.bytes.size ≠ width * height * pixelBytes then .error .wrongSize
  else
    .ok (signature ++ chunk headerTag (headerBytes width height) ++
      dataChunks (Deflate.store (filteredRows p)) ++ endChunk).toArray

end TwinScreen.Png
