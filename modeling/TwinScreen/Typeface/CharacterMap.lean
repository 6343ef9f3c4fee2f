import TwinScreen.BigEndian

/-!
# Character maps of font files

The `cmap` table of a font file holds subtables in several formats, each of which assigns glyph
numbers to characters. Those for Unicode are kept, in the order of the file, up to the first
subtable that cannot be read; a character has the glyph that the first of them gives it.
-/
namespace TwinScreen.Typeface

open BigEndian

inductive MapFormat where
  | byteEncoding
  | highByte
  | segments
  | trimmed
  | mixed
  | trimmedLong
  | ranges
  | manyToOne
  | variations
  deriving DecidableEq, Repr

/-- A subtable and its bytes, to the end of the table. -/
structure CharacterMap where
  format : MapFormat
  data : Array UInt8

namespace CharacterMap

/-- Largest subheader number used by the high bytes of a mixed 8/16-bit subtable. -/
def lastSubheader (data : Array UInt8) : Nat :=
  (List.range 256).foldl (fun n i => max n ((word? data (6 + 2 * i)).getD 0 / 8)) 0

def format? (data : Array UInt8) : Option MapFormat := do
  match ← word? data 0 with
  | 0 => if holds data 6 256 then some .byteEncoding else none
  | 2 =>
      if holds data 6 512 ∧ holds data 518 (8 * (lastSubheader data + 1)) then some .highByte
      else none
  | 4 =>
      let doubled ← word? data 6
      let count := doubled / 2
      if 2 ≤ doubled ∧ holds data 14 (8 * count + 2) then some .segments else none
  | 6 => if holds data 10 (2 * (← word? data 8)) then some .trimmed else none
  | 8 => some .mixed
  | 10 => if holds data 20 (2 * (← long? data 16)) then some .trimmedLong else none
  | 12 => if holds data 16 (12 * (← long? data 12)) then some .ranges else none
  | 13 => if holds data 16 (12 * (← long? data 12)) then some .manyToOne else none
  | 14 => if holds data 10 (11 * (← long? data 6)) then some .variations else none
  | _ => none

def byteEncodingGlyph? (data : Array UInt8) (code : Nat) : Option Nat :=
  if code < 256 then (byte? data (6 + code)).filter (· ≠ 0) else none

def highByteGlyph? (data : Array UInt8) (code : Nat) : Option Nat := do
  if 65536 ≤ code then none
  let low := code % 256
  let i ← if code < 255 then some 0 else (word? data (6 + 2 * (code / 256))).map (· / 8)
  let header := 518 + 8 * i
  if lastSubheader data < i then none
  let first ← word? data header
  let count ← word? data (header + 2)
  let delta ← signedWord? data (header + 4)
  let range ← word? data (header + 6)
  if 65536 ≤ first + count ∨ low < first ∨ first + count ≤ low then none
  let glyph ← word? data (header + 6 + range + 2 * (low - first))
  if glyph = 0 then none
  let moved := Int.tmod (glyph + delta) 65536
  if moved < 0 then none else some moved.toNat

/-- Finds the segment of a character by halving the segments from `first` up to `last`, then its
glyph. -/
def segmentGlyph? (data : Array UInt8) (count code first last : Nat) : Option Nat := do
  if _h : first < last then
    let index := (first + last) / 2
    let endCode ← word? data (14 + 2 * index)
    let startCode ← word? data (16 + 2 * count + 2 * index)
    if endCode < code then
      segmentGlyph? data count code (index + 1) last
    else if code < startCode then
      segmentGlyph? data count code first index
    else
      let delta ← word? data (16 + 4 * count + 2 * index)
      let rangePosition := 16 + 6 * count + 2 * index
      let range ← word? data rangePosition
      if range = 0 then
        some ((code + delta) % 65536)
      else if range = 65535 ∨ 65536 ≤ 2 * (code - startCode) then
        none
      else
        let glyph ← word? data ((rangePosition + 2 * (code - startCode) + range) % 65536)
        if glyph = 0 then none
        let moved := (glyph + delta) % 65536
        if moved < 32768 then some moved else none
  else none
termination_by last - first
decreasing_by
  all_goals omega

def segmentsGlyph? (data : Array UInt8) (code : Nat) : Option Nat := do
  if 65536 ≤ code then none
  let count := (← word? data 6) / 2
  segmentGlyph? data count code 0 count

def trimmedGlyph? (data : Array UInt8) (code : Nat) : Option Nat := do
  let first ← word? data 6
  let count ← word? data 8
  if 65536 ≤ code ∨ code < first ∨ first + count ≤ code then none
  word? data (10 + 2 * (code - first))

def trimmedLongGlyph? (data : Array UInt8) (code : Nat) : Option Nat := do
  let first ← long? data 12
  let count ← long? data 16
  if code < first ∨ first + count ≤ code then none
  word? data (20 + 2 * (code - first))

/-- First character, last character and first glyph of a range. -/
def range? (data : Array UInt8) (i : Nat) : Option (Nat × Nat × Nat) := do
  let start := 16 + 12 * i
  return (← long? data start, ← long? data (start + 4), ← long? data (start + 8))

def rangesGlyph? (data : Array UInt8) (code : Nat) : Option Nat := do
  let order (i : Nat) : Ordering :=
    match range? data i with
    | some (first, last, _) => if code < first then .gt else if last < code then .lt else .eq
    | none => .gt
  let (first, _, glyph) ← range? data (← bisect order 0 (← long? data 12))
  if 0x100000000 ≤ glyph + code then none
  let moved := glyph + code - first
  if moved < 65536 then some moved else none

/-- The glyph of the first range, from number `i` on, that holds a character. -/
def manyToOneGlyph? (data : Array UInt8) (code : Nat) (ranges : List Nat) : Option Nat :=
  match ranges with
  | [] => none
  | i :: more =>
      match range? data i with
      | some (first, last, glyph) =>
          if first ≤ code ∧ code ≤ last then (if glyph < 65536 then some glyph else none)
          else manyToOneGlyph? data code more
      | none => none

def glyph? (m : CharacterMap) (code : Nat) : Option Nat :=
  match m.format with
  | .byteEncoding => byteEncodingGlyph? m.data code
  | .highByte => highByteGlyph? m.data code
  | .segments => segmentsGlyph? m.data code
  | .trimmed => trimmedGlyph? m.data code
  | .trimmedLong => trimmedLongGlyph? m.data code
  | .ranges => rangesGlyph? m.data code
  | .manyToOne =>
      manyToOneGlyph? m.data code (List.range ((long? m.data 12).getD 0))
  | .mixed | .variations => none

def isUnicode (platform encoding : Nat) (format : MapFormat) : Bool :=
  platform == 0 ||
    (platform == 3 &&
      (encoding == 1 || (encoding == 10 && (format == .ranges || format == .manyToOne))))

/-- The record number `i` of a table: platform, encoding and subtable. -/
def record? (table : Array UInt8) (i : Nat) : Option (Nat × Nat × CharacterMap) := do
  let start := 4 + 8 * i
  let platform ← word? table start
  if 4 < platform then none
  let encoding ← word? table (start + 2)
  let data ← tail? table (← long? table (start + 4))
  return (platform, encoding, ⟨← format? data, data⟩)

/-- The Unicode subtables among these records, up to the first unreadable one. -/
def collect (table : Array UInt8) : List Nat → List CharacterMap
  | [] => []
  | i :: more =>
      match record? table i with
      | some (platform, encoding, m) =>
          if isUnicode platform encoding m.format then m :: collect table more
          else collect table more
      | none => []

def ofTable (table : Array UInt8) : List CharacterMap :=
  match word? table 2 with
  | some count => if holds table 4 (8 * count) then collect table (List.range count) else []
  | none => []

end CharacterMap

end TwinScreen.Typeface
