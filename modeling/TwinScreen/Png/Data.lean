import TwinScreen.Deflate.Inflate
import TwinScreen.Png.Preamble
import TwinScreen.Png.Rows

/-!
# Image data

The image data is compressed and spread over consecutive chunks of one name. No more of it is
decompressed than the rows take, and rows are made use of as soon as they are decompressed: the
flaws of the first row come before those of a later chunk.
-/
namespace TwinScreen.Png

open BigEndian

/-! ## Pieces -/

/-- What comes behind the image data that could be read. -/
inductive DataEnd where
  | otherChunk
  /-- A chunk whose checksum or number is wrong. -/
  | broken
  /-- The end of the file. -/
  | cut
  deriving DecidableEq, Repr

/-- The flaw of a file whose image data ends like this before the last row. -/
def DataEnd.flaw : DataEnd → Flaw
  | otherChunk | broken => .malformed
  | cut => .cutShort

/-- The bytes in front of the image data in its chunks. -/
def dataOffset (tag : Nat) : Nat := if tag = frameDataTag then 4 else 0

/-- The number in front of the data of a frame is the one that is expected; other data has none. -/
def numberAgrees (file : Array UInt8) (tag number position : Nat) : Bool :=
  tag != frameDataTag || long? file (position + 8) == some number

/-- Gathers the image data of consecutive chunks with a name from a position on. `number` is the
next number in an animation; `pieces` holds those gathered, the latest first. -/
def gatherData (file : Array UInt8) (tag number : Nat) (pieces : List (Array UInt8))
    (position : Nat) : List (Array UInt8) × DataEnd :=
  match chunkHead? file position with
  | none => (pieces.reverse, .cut)
  | some (length, name) =>
      let start := position + 8 + dataOffset tag
      if name ≠ tag then (pieces.reverse, .otherChunk)
      else if length < dataOffset tag then (pieces.reverse, .broken)
      else if file.size < start then (pieces.reverse, .cut)
      else if !numberAgrees file tag number position then (pieces.reverse, .broken)
      else
        let pieces := file.extract start (position + 8 + length) :: pieces
        if _h : position + 12 + length ≤ file.size then
          if checksumAgrees file position length then
            gatherData file tag (number + 1) pieces (position + 12 + length)
          else (pieces.reverse, .broken)
        else (pieces.reverse, .cut)
termination_by file.size - position
decreasing_by omega

/-! ## Rows -/

inductive DecodeError where
  | flaw (flaw : Flaw)
  | fault (fault : Fault)
  deriving DecidableEq, Repr

/-- How many bytes are decompressed: those of all rows, and one for each row of a pass that has no
columns. -/
def wantedBytes (h : Header) : Nat :=
  h.passes.foldl
    (fun sum pass => sum + pass.rows h.height * (1 + h.rowBytes (pass.columns h.width))) 0

/-- What is wrong with the first row, if it is among these bytes. Where pixels are palette entries,
the palette is needed with it; one that ends within an entry cannot be read. -/
def checkFirstRow (p : Preamble) (bytes : Array UInt8) : Except DecodeError Unit :=
  if bytes.size < firstRowBytes p.header then .ok ()
  else if methodMax < (bytes.getD 0 0).toNat then .error (.flaw .malformed)
  else
    match p.header.kind, p.palette with
    | .indexed, none => .error (.flaw .malformed)
    | .indexed, some palette =>
        if palette.size % 3 = 0 then .ok () else .error (.fault .outOfRange)
    | _, _ => .ok ()

/-- The pieces of which a number of bits does not reach the end. -/
def piecesBefore (bits : Nat) : List (Array UInt8) → List (Array UInt8)
  | [] => []
  | piece :: more =>
      if bits ≤ 8 * piece.size then [] else piece :: piecesBefore (bits - 8 * piece.size) more

/-- The rows of all passes. Where the data is malformed, all that could be decompressed before the
piece that shows it is looked at first. -/
def rowsOf (p : Preamble) (pieces : List (Array UInt8)) (dataEnd : DataEnd) :
    Except DecodeError (List (Pass × Array (Array UInt8))) := do
  let wanted := wantedBytes p.header
  let inflated := Deflate.inflate wanted pieces
  match inflated.ending with
  | .malformed seen => do
      checkFirstRow p (Deflate.inflate wanted (piecesBefore seen pieces)).bytes
      throw (.flaw .malformed)
  | ending => do
      checkFirstRow p inflated.bytes
      match readPasses inflated.bytes p.header 0 [] p.header.passes with
      | .unknownMethod => throw (.flaw .malformed)
      | .short => throw (.flaw dataEnd.flaw)
      | .complete rows =>
          if dataEnd ≠ .otherChunk then throw (.flaw dataEnd.flaw)
          else if ending = .complete ∨ wanted ≤ inflated.bytes.size then return rows
          else throw (.flaw .malformed)

end TwinScreen.Png
