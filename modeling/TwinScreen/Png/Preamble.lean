import TwinScreen.Png.Header

/-!
# Chunks in front of the image data

Before the image data there may be a palette, a note on which pixels are transparent, and a
description of the first frame of an animation, which must agree with the header. Other chunks that
may be left out are skipped, also broken ones; only a note on how colors are to be understood must
be a known one.
-/
namespace TwinScreen.Png

open BigEndian

/-- All that is known before the image data. -/
structure Preamble where
  header : Header
  /-- Red, green and blue of every palette entry. -/
  palette : Option (Array UInt8)
  /-- The alphas of palette entries, or the stored pixel that is transparent. -/
  transparency : Option (List UInt8)
  /-- The number of the last description of a frame. -/
  frame : Option Nat
  /-- There is a note on how colors are to be understood. -/
  colorsNoted : Bool

namespace Preamble

def start (h : Header) : Preamble := ⟨h, none, none, none, false⟩

def nextNumber (p : Preamble) : Nat :=
  match p.frame with
  | some n => n + 1
  | none => 0

end Preamble

/-! ## Names and lengths -/

/-- `PLTE`. -/
def paletteTag : Nat := 0x504C5445

/-- `tRNS`. -/
def transparencyTag : Nat := 0x74524E53

/-- `fcTL`, the description of a frame. -/
def frameTag : Nat := 0x6663544C

/-- `fdAT`, image data of a described frame. -/
def frameDataTag : Nat := 0x66644154

/-- `cICP`, how colors are to be understood. -/
def colorsTag : Nat := 0x63494350

/-- A chunk must be flawless: one that may not be left out, or the description of a frame. -/
def isStrict (tag : Nat) : Bool := !isOptional tag || tag == frameTag

def isKnownStrict (tag : Nat) : Bool := [headerTag, paletteTag, endTag, frameTag].contains tag

/-- A chunk with this name may have this length. -/
def allowsLength (tag length : Nat) : Bool :=
  if tag = headerTag then length == 13
  else if tag = paletteTag then 3 ≤ length && length ≤ 768
  else if tag = endTag then length == 0
  else if tag = transparencyTag then 1 ≤ length && length ≤ 256
  else if tag = frameTag then length == 26
  else if tag = colorsTag then length == 4
  else length < 0x80000000

/-! ## Effects of chunks -/

namespace Preamble

/-- The preamble with what a transparency chunk says, if that makes sense. -/
def withTransparency (p : Preamble) (data : List UInt8) : Preamble :=
  if p.transparency.isSome then p
  else
    match p.header.kind, data with
    | .gray, _ :: low :: _ =>
        { p with transparency := some (if p.header.depth < 16 then [low] else data) }
    | .rgb, _ :: red :: _ :: green :: _ :: blue :: _ =>
        { p with transparency := some (if p.header.depth < 16 then [red, green, blue] else data) }
    | .indexed, _ => if p.palette.isSome then { p with transparency := some data } else p
    | _, _ => p

/-- The bytes describe the next frame, which covers the whole image. -/
def describesFrame (p : Preamble) (data : Array UInt8) : Bool :=
  long? data 0 == some p.nextNumber &&
    long? data 4 == some p.header.width && long? data 8 == some p.header.height &&
    long? data 12 == some 0 && long? data 16 == some 0 &&
    (byte? data 24).any (· ≤ 2) && (byte? data 25).any (· ≤ 1)

def withFrame (p : Preamble) (data : Array UInt8) : Except Flaw Preamble :=
  if p.describesFrame data then .ok { p with frame := some p.nextNumber } else .error .malformed

/-- The effect of a note on colors. Only the first one in front of the palette counts: the colors
must be red, green and blue, in a part or in the whole of their range. -/
def withColors (p : Preamble) (data : Array UInt8) : Except Flaw Preamble :=
  if p.palette.isSome ∨ p.colorsNoted then .ok p
  else if byte? data 2 = some 0 ∧ (byte? data 3).any (· ≤ 1) then .ok { p with colorsNoted := true }
  else .error .unknownColors

def withChunk (p : Preamble) (tag : Nat) (data : Array UInt8) : Except Flaw Preamble :=
  if tag = paletteTag then
    if p.palette.isSome then .error .malformed else .ok { p with palette := some data }
  else if tag = transparencyTag then .ok (p.withTransparency data.toList)
  else if tag = frameTag then p.withFrame data
  else if tag = colorsTag then p.withColors data
  else if isOptional tag then .ok p
  else .error .malformed

/-- Image data may start with this chunk. Data of a frame needs its description, and starts with a
number. -/
def startsData (p : Preamble) (tag length : Nat) : Bool :=
  tag == dataTag || (tag == frameDataTag && p.frame.isSome && 4 ≤ length)

end Preamble

/-- Reads chunks from a position on until the image data starts; the result has the position and the
name of the first chunk of image data. -/
def readPreamble (file : Array UInt8) (p : Preamble) (position : Nat) :
    Except Flaw (Preamble × Nat × Nat) :=
  match chunkHead? file position with
  | none => .error .cutShort
  | some (length, tag) =>
      if p.startsData tag length then .ok (p, position, tag)
      else if tag = frameDataTag then .error .malformed
      else if isStrict tag ∧ (!isKnownStrict tag ∨ !allowsLength tag length) then .error .malformed
      else if _h : position + 12 + length ≤ file.size then
        if checksumAgrees file position length then
          if allowsLength tag length then
            match p.withChunk tag (file.extract (position + 8) (position + 8 + length)) with
            | .ok p => readPreamble file p (position + 12 + length)
            | .error e => .error e
          else readPreamble file p (position + 12 + length)
        else if isOptional tag then readPreamble file p (position + 12 + length)
        else .error .malformed
      else .error .cutShort
termination_by file.size - position
decreasing_by all_goals omega

end TwinScreen.Png
