import TwinScreen.BigEndian

/-!
# Kerning of font files

The `kern` table moves pairs of neighbouring glyphs together or apart. It has two variants with
subtables of several formats; those for horizontal text that do not vary are kept, in the order of
the file, up to the first that cannot be read. A pair is moved as the first subtable says that
has it.
-/
namespace TwinScreen.Typeface

open BigEndian

inductive KerningFormat where
  | pairs
  | states
  | classes
  | indices
  deriving DecidableEq, Repr

structure Kerning where
  format : KerningFormat
  /-- Bytes in the header, from which some offsets count. -/
  header : Nat
  data : Array UInt8

namespace Kerning

def pairsMove? (data : Array UInt8) (left right : Nat) : Option Int := do
  let pair := 65536 * left + right
  let order (i : Nat) : Ordering := compare ((long? data (8 + 6 * i)).getD 0) pair
  let i ← bisect order 0 (← word? data 0)
  signedWord? data (8 + 6 * i + 4)

/-- The class of a glyph in a class table at a position, already multiplied to an offset. -/
def classOffset? (data : Array UInt8) (position glyph : Nat) : Option Nat := do
  let first ← word? data position
  let count ← word? data (position + 2)
  if glyph < first ∨ first + count ≤ glyph then none
  if !holds data (position + 4) (2 * count) then none
  word? data (position + 4 + 2 * (glyph - first))

/-- A position counted from the start of the header. -/
def behindHeader? (header : Nat) (position : Nat) : Option Nat :=
  if position < header then none else some (position - header)

def classesMove? (header : Nat) (data : Array UInt8) (left right : Nat) : Option Int := do
  let leftTable ← behindHeader? header (← word? data 2)
  let rightTable ← behindHeader? header (← word? data 4)
  let array ← behindHeader? header (← word? data 6)
  let leftClass := (classOffset? data leftTable left).getD 0
  let rightClass := (classOffset? data rightTable right).getD 0
  if leftClass < array then none
  signedWord? data (← behindHeader? header (leftClass + rightClass))

def indicesMove? (data : Array UInt8) (left right : Nat) : Option Int := do
  let glyphs ← word? data 0
  let values ← byte? data 2
  let leftClasses ← byte? data 3
  let rightClasses ← byte? data 4
  let leftTable := 6 + 2 * values
  let rightTable := leftTable + glyphs
  let indices := rightTable + glyphs
  if !holds data 6 (2 * values + 2 * glyphs + leftClasses * rightClasses) then none
  if glyphs ≤ left ∨ glyphs ≤ right then none
  let leftClass ← byte? data (leftTable + left)
  let rightClass ← byte? data (rightTable + right)
  if leftClasses < leftClass ∨ rightClasses < rightClass then none
  let place := leftClass * rightClasses + rightClass
  if leftClasses * rightClasses ≤ place then none
  let index ← byte? data (indices + place)
  if values ≤ index then none
  signedWord? data (6 + 2 * index)

def move? (k : Kerning) (left right : Nat) : Option Int :=
  match k.format with
  | .pairs => pairsMove? k.data left right
  | .states => none
  | .classes => classesMove? k.header k.data left right
  | .indices => indicesMove? k.data left right

/-- The parts of a state table lie inside the data. -/
def statesReadable (data : Array UInt8) : Bool :=
  match word? data 2, word? data 4, word? data 6 with
  | some classes, some states, some entries =>
      match word? data (classes + 2) with
      | some glyphs =>
          holds data (classes + 4) glyphs && holds data states 0 && holds data entries 0
      | none => false
  | _, _, _ => false

/-- A subtable with a format number, if its data is long enough. -/
def subtable? (format header : Nat) (data : Array UInt8) : Option Kerning :=
  match format with
  | 0 => do
      if holds data 8 (6 * (← word? data 0)) then some ⟨.pairs, header, data⟩ else none
  | 1 => if statesReadable data then some ⟨.states, header, data⟩ else none
  | 2 => some ⟨.classes, header, data⟩
  | 3 => some ⟨.indices, header, data⟩
  | _ => none

/-- A subtable read at the start of some bytes, whether it counts, and the bytes behind it. -/
structure Entry where
  subtable : Kerning
  counts : Bool
  rest : Array UInt8

/-- Reads a subtable with the long header, which may vary or be vertical. -/
def longRecord? (bytes : Array UInt8) : Option Entry := do
  let length ← long? bytes 0
  let coverage ← byte? bytes 4
  let format ← byte? bytes 5
  if length < 8 then none
  let data ← slice? bytes 8 (length - 8)
  let subtable ← subtable? format 8 data
  return ⟨subtable, coverage / 128 = 0 && coverage / 32 % 2 = 0,
    bytes.extract length bytes.size⟩

/-- Reads a subtable with the short header. The length of an only subtable is not looked at. -/
def shortRecord? (only : Bool) (bytes : Array UInt8) : Option Entry := do
  let length ← word? bytes 2
  let format ← byte? bytes 4
  let coverage ← byte? bytes 5
  if format ≠ 0 ∧ format ≠ 2 then none
  if !only ∧ length < 6 then none
  let length := if only then bytes.size else length
  let data ← slice? bytes 6 (length - 6)
  let subtable ← subtable? format 6 data
  return ⟨subtable, coverage % 2 = 1, bytes.extract length bytes.size⟩

/-- Reads subtables as long as there are bytes and no more than `limit` of them. -/
def collect (read : Array UInt8 → Option Entry) : Nat → Array UInt8 → List Kerning
  | 0, _ => []
  | limit + 1, bytes =>
      if bytes.isEmpty then []
      else match read bytes with
        | none => []
        | some entry =>
            let more := collect read limit entry.rest
            if entry.counts then entry.subtable :: more else more

def ofTable (table : Array UInt8) : List Kerning :=
  match word? table 0 with
  | none => []
  | some 0 =>
      match word? table 2 with
      | none => []
      | some count =>
          if count = 0 then [] else
            collect (shortRecord? (count == 1)) table.size (table.extract 4 table.size)
  | some _ =>
      match long? table 4 with
      | none => []
      | some count =>
          if count = 0 then [] else
            collect longRecord? table.size (table.extract 8 table.size)

end Kerning

end TwinScreen.Typeface
