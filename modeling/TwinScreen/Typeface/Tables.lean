import TwinScreen.Bounds
import TwinScreen.Typeface.CharacterMap
import TwinScreen.Typeface.Kerning

/-!
# Font files

A font file starts with records of its tables, which have four-letter tags. Three tables must be
readable: the header, the header of horizontal metrics and the limits. Any other table that is
missing or malformed counts as empty.
-/
namespace TwinScreen.Typeface

open BigEndian

def tag (letters : String) : Nat := letters.toList.foldl (fun n c => 256 * n + c.toNat) 0

/-- The position of the first table record in a font file, behind the number of records. -/
def recordsStart? (file : Array UInt8) : Option Nat := do
  let single (magic : Nat) : Bool :=
    magic == 0x00010000 || magic == tag "true" || magic == tag "OTTO"
  let magic ← long? file 0
  if magic = tag "ttcf" then
    let count ← long? file 8
    if count = 0 ∨ !holds file 12 (4 * count) then none
    let start ← long? file 12
    if start < 12 + 4 * count then none
    if single (← long? file start) then some (start + 4) else none
  else if single magic then some 4
  else none

def table? (file : Array UInt8) (name : String) : Option (Array UInt8) := do
  let start ← recordsStart? file
  let count ← word? file start
  let record (i : Nat) : Nat := start + 8 + 16 * i
  let i ← (List.range count).reverse.find? fun i => long? file (record i) == some (tag name)
  slice? file (← long? file (record i + 8)) (← long? file (record i + 12))

def recordsReadable (file : Array UInt8) : Bool :=
  match recordsStart? file with
  | some start =>
      match word? file start with
      | some count => holds file (start + 8) (16 * count)
      | none => false
  | none => false

/-- Glyph positions are stored as 32-bit numbers (`true`) or as halves in 16 bits, or the header is
unreadable. -/
def longLocations? (head : Array UInt8) : Option Bool := do
  if head.size < 54 then none
  let unitsPerEm ← word? head 18
  if unitsPerEm < 16 ∨ 16384 < unitsPerEm then none
  match ← word? head 50 with
  | 0 => some false
  | 1 => some true
  | _ => none

def glyphCount? (maxp : Array UInt8) : Option Nat := do
  let version ← long? maxp 0
  if version ≠ 0x00005000 ∧ version ≠ 0x00010000 then none
  (word? maxp 4).filter (· ≠ 0)

/-- The `OS/2` table, if it is as long as its version asks for. -/
def os2? (table : Array UInt8) : Option (Array UInt8) := do
  let length ← match ← word? table 0 with
    | 0 => some 78
    | 1 => some 86
    | 2 | 3 | 4 => some 96
    | 5 => some 100
    | _ => none
  if table.size < length then none else some table

structure Extents where
  ascender : Int
  descender : Int
  lineGap : Int
  deriving DecidableEq, Repr

namespace Extents

def signed (table : Array UInt8) (i : Nat) : Int := (signedWord? table i).getD 0

/-- The extents that the `OS/2` table means to be used instead of all others. -/
def preferred? (os2 : Array UInt8) : Option Extents := do
  if (← word? os2 0) < 4 ∨ (← word? os2 62) / 128 % 2 = 0 then none
  return ⟨signed os2 68, signed os2 70, signed os2 72⟩

/-- The last resort for the descender is stored without its sign. -/
def depth (os2 : Array UInt8) : Except Fault Int :=
  let stored := signed os2 76
  if stored = -32768 then .error .overflow else .ok (-stored)

/-- The extents of a font from its `hhea` and `OS/2` tables. A zero of `hhea` gives way to the
typographic value, and a zero of that to the last one. -/
def ofTables (hhea : Array UInt8) (os2 : Option (Array UInt8)) : Except Fault Extents := do
  let asc := signed hhea 4
  let desc := signed hhea 6
  let gap := signed hhea 8
  match os2 with
  | none => return ⟨asc, desc, gap⟩
  | some os2 =>
      match preferred? os2 with
      | some extents => return extents
      | none =>
          let descender ←
            if desc ≠ 0 then pure desc
            else if signed os2 70 ≠ 0 then pure (signed os2 70)
            else depth os2
          return {
            ascender :=
              if asc ≠ 0 then asc else if signed os2 68 ≠ 0 then signed os2 68 else signed os2 74
            descender
            lineGap :=
              if asc ≠ 0 ∧ desc ≠ 0 then gap
              else if signed os2 68 ≠ 0 ∨ signed os2 70 ≠ 0 then signed os2 72
              else 0 }

end Extents

/-- What is needed of a font file to place and draw glyphs. -/
structure Tables where
  /-- The extents, or why they cannot be used. -/
  extents : Except Fault Extents
  maps : List CharacterMap
  kernings : List Kerning
  glyphCount : Nat
  /-- Number of glyphs with a width of their own. -/
  metricCount : Nat
  /-- Widths of the glyphs, 4 bytes apart; later glyphs have the last width. -/
  hmtx : Array UInt8
  longLocations : Bool
  /-- Positions of the glyphs in `glyf`. -/
  loca : Array UInt8
  glyf : Array UInt8

namespace Tables

def ofFile? (file : Array UInt8) : Option Tables := do
  if !recordsReadable file then none
  let longLocations ← longLocations? (← table? file "head")
  let hhea ← table? file "hhea"
  if hhea.size < 36 then none
  let glyphCount ← glyphCount? (← table? file "maxp")
  let metricCount ← word? hhea 34
  let hmtx := (table? file "hmtx").getD #[]
  return {
    extents := Extents.ofTables hhea ((table? file "OS/2").bind os2?)
    maps := ((table? file "cmap").map CharacterMap.ofTable).getD []
    kernings := ((table? file "kern").map Kerning.ofTable).getD []
    glyphCount
    metricCount := if holds hmtx 0 (4 * metricCount) then metricCount else 0
    hmtx
    longLocations
    loca := (table? file "loca").getD #[]
    glyf := (table? file "glyf").getD #[] }

/-- The glyph of a character; glyph 0 stands for all that have none. -/
def glyph (t : Tables) (c : Char) : Nat := (t.maps.findSome? fun m => m.glyph? c.toNat).getD 0

def advance (t : Tables) (glyph : Nat) : Nat :=
  if t.metricCount = 0 ∨ max t.metricCount t.glyphCount ≤ glyph then 0
  else (word? t.hmtx (4 * min glyph (t.metricCount - 1))).getD 0

/-- How two neighbouring glyphs are moved together or apart, in font units. -/
def kerning (t : Tables) (left right : Nat) : Int :=
  (t.kernings.findSome? fun k => k.move? left right).getD 0

def locationCount (t : Tables) : Nat :=
  let present := t.loca.size / (if t.longLocations then 4 else 2)
  if 65536 ≤ present then 0 else min (min (t.glyphCount + 1) 65535) present

def location? (t : Tables) (glyph : Nat) : Option Nat :=
  if t.longLocations then long? t.loca (4 * glyph) else (word? t.loca (2 * glyph)).map (2 * ·)

def glyphData? (t : Tables) (glyph : Nat) : Option (Array UInt8) := do
  if glyph = 65535 ∨ t.locationCount ≤ glyph + 1 then none
  let start ← t.location? glyph
  let stop ← t.location? (glyph + 1)
  if stop ≤ start then none else slice? t.glyf start (stop - start)

end Tables

end TwinScreen.Typeface
