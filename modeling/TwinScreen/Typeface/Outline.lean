import TwinScreen.Typeface.Rounding
import TwinScreen.Typeface.Tables

/-!
# Outlines of glyphs

A glyph is drawn by closed contours of straight lines and quadratic curves. A simple glyph lists
the points of its contours, on or off the curve; between two points off the curve one on it is
implied half-way. A composite glyph places other glyphs, moved and stretched by a matrix. All
coordinates are in font units; numbers are single-precision.
-/
namespace TwinScreen.Typeface

open BigEndian

structure Point where
  x : Float32
  y : Float32

namespace Point

/-- The point a share `t` of the way to another. -/
def lerp (t : Float32) (p q : Point) : Point := ⟨p.x + t * (q.x - p.x), p.y + t * (q.y - p.y)⟩

def middle (p q : Point) : Point := lerp 0.5 p q

end Point

inductive Curve where
  | line (start stop : Point)
  | quadratic (start control stop : Point)

/-- The smaller of two numbers; one that is not a number is disregarded. -/
def smaller (a b : Float32) : Float32 :=
  if a.isNaN then b else if b.isNaN then a else if b < a then b else a

/-- The larger of two numbers; one that is not a number is disregarded. -/
def larger (a b : Float32) : Float32 :=
  if a.isNaN then b else if b.isNaN then a else if a < b then b else a

/-- The smallest rectangle around all points given so far. -/
structure Box where
  left : Float32
  bottom : Float32
  right : Float32
  top : Float32

namespace Box

def largest : Float32 := Float32.ofBits 0x7F7FFFFF

def empty : Box := ⟨largest, largest, -largest, -largest⟩

def extend (b : Box) (p : Point) : Box :=
  ⟨smaller b.left p.x, smaller b.bottom p.y, larger b.right p.x, larger b.top p.y⟩

end Box

/-- A matrix and an offset: `x` becomes `a·x + c·y + e` and `y` becomes `b·x + d·y + f`. -/
structure Transform where
  a : Float32
  b : Float32
  c : Float32
  d : Float32
  e : Float32
  f : Float32

namespace Transform

def identity : Transform := ⟨1, 0, 0, 1, 0, 0⟩

/-- First `inner`, then `outer`. -/
def combine (outer inner : Transform) : Transform where
  a := outer.a * inner.a + outer.c * inner.b
  b := outer.b * inner.a + outer.d * inner.b
  c := outer.a * inner.c + outer.c * inner.d
  d := outer.b * inner.c + outer.d * inner.d
  e := outer.a * inner.e + outer.c * inner.f + outer.e
  f := outer.b * inner.e + outer.d * inner.f + outer.f

def isIdentity (t : Transform) : Bool :=
  t.a == 1 && t.b == 0 && t.c == 0 && t.d == 1 && t.e == 0 && t.f == 0

def apply (t : Transform) (p : Point) : Point :=
  if t.isIdentity then p
  else ⟨t.a * p.x + t.c * p.y + t.e, t.b * p.x + t.d * p.y + t.f⟩

end Transform

/-- The contours drawn so far, the latest piece first. -/
structure Drawing where
  curves : List Curve
  pen : Point
  /-- Where the open contour started. -/
  opened : Option Point
  box : Box

namespace Drawing

def blank : Drawing := ⟨[], ⟨0, 0⟩, none, Box.empty⟩

def close (d : Drawing) : Drawing :=
  match d.opened with
  | some start => { d with curves := .line d.pen start :: d.curves, opened := none }
  | none => d

/-- Starts a contour. One that is still open ends. -/
def moveTo (d : Drawing) (p : Point) : Drawing :=
  { d.close with pen := p, opened := some p, box := d.box.extend p }

def lineTo (d : Drawing) (p : Point) : Drawing :=
  { d with curves := .line d.pen p :: d.curves, pen := p, box := d.box.extend p }

def curveTo (d : Drawing) (control p : Point) : Drawing :=
  { d with
    curves := .quadratic d.pen control p :: d.curves
    pen := p
    box := (d.box.extend control).extend p }

end Drawing

structure Tracing where
  transform : Transform
  drawing : Drawing
  firstOn : Option Point
  firstOff : Option Point
  lastOff : Option Point

namespace Tracing

def start (transform : Transform) (drawing : Drawing) : Tracing :=
  ⟨transform, drawing, none, none, none⟩

def moveTo (t : Tracing) (p : Point) : Tracing :=
  { t with drawing := t.drawing.moveTo (t.transform.apply p) }

def lineTo (t : Tracing) (p : Point) : Tracing :=
  { t with drawing := t.drawing.lineTo (t.transform.apply p) }

def curveTo (t : Tracing) (control p : Point) : Tracing :=
  { t with drawing := t.drawing.curveTo (t.transform.apply control) (t.transform.apply p) }

def push (t : Tracing) (p : Point) (onCurve : Bool) : Tracing :=
  match t.firstOn with
  | none =>
      if onCurve then { t.moveTo p with firstOn := some p }
      else match t.firstOff with
        | some off =>
            let start := off.middle p
            { t.moveTo start with firstOn := some start, lastOff := some p }
        | none => { t with firstOff := some p }
  | some _ =>
      match t.lastOff, onCurve with
      | some off, true => { t.curveTo off p with lastOff := none }
      | some off, false => { t.curveTo off (off.middle p) with lastOff := some p }
      | none, true => t.lineTo p
      | none, false => { t with lastOff := some p }

/-- Brings the contour back to its first point. -/
def finish (t : Tracing) : Tracing :=
  let t := match t.firstOff, t.lastOff with
    | some first, some last => { t.curveTo last (last.middle first) with lastOff := none }
    | _, _ => t
  let t := match t.firstOn, t.firstOff, t.lastOff with
    | some p, some first, _ => t.curveTo first p
    | some p, none, some last => t.curveTo last p
    | some p, none, none => t.lineTo p
    | none, _, _ => t
  start t.transform t.drawing.close

end Tracing

/-! ## Simple glyphs -/

structure GlyphPoint where
  x : Int
  y : Int
  onCurve : Bool
  /-- It is the last point of its contour. -/
  closes : Bool

def flag (flags i : Nat) : Bool := flags.testBit i

/-- The flags of `left` points from a position on, each with its repetitions, and the position
behind them. -/
def readFlags (data : Array UInt8) (position left : Nat) : Option (List Nat × Nat) := do
  if _h : left = 0 then
    return ([], position)
  else
    let flags ← byte? data position
    let extra ← if flag flags 3 then byte? data (position + 1) else some 0
    if left < extra + 1 then none
    let (more, behind) ←
      readFlags data (if flag flags 3 then position + 2 else position + 1) (left - (extra + 1))
    return (List.replicate (extra + 1) flags ++ more, behind)
termination_by left
decreasing_by omega

/-- Coordinates, each the sum of the one before and a stored difference of 16 bits, 8 bits with a
sign among the flags, or nothing; `short` and `same` are the numbers of its two flags. -/
def readCoordinates (data : Array UInt8) (short same : Nat) (previous : Int) (position : Nat) :
    List Nat → List Int
  | [] => []
  | flags :: more =>
      let (difference, size) : Int × Nat :=
        if flag flags short then
          let n : Int := (byte? data position).getD 0
          (if flag flags same then n else -n, 1)
        else if flag flags same then (0, 0)
        else ((signedWord? data position).getD 0, 2)
      let value := Int.bmod (previous + difference) 65536
      value :: readCoordinates data short same value (position + size) more

def coordinateBytes (short same : Nat) (flags : List Nat) : Nat :=
  flags.foldl (fun sum f => sum + if flag f short then 1 else if flag f same then 0 else 2) 0

/-- For each of `count` points whether it closes a contour: `left` points come before the next one
that does, and `ends` are the numbers of the closing points, from the present contour on. -/
def closings (ends : List Nat) (left : Nat) : Nat → List Bool
  | 0 => []
  | count + 1 =>
      match left with
      | left + 1 => false :: closings ends left count
      | 0 =>
          match ends with
          | previous :: next :: rest =>
              true :: closings (next :: rest) (next - previous - 1) count
          | _ => true :: closings [] 0 count

/-- The points of a simple glyph with `contours` contours, which are described from position 10
on. -/
def simplePoints? (data : Array UInt8) (contours : Nat) : Option (List GlyphPoint) := do
  if !holds data 10 (2 * contours) then none
  let ends := (List.range contours).map fun i => (word? data (10 + 2 * i)).getD 0
  let last ← ends.getLast?
  if last = 65535 then none
  let count := last + 1
  if count = 1 then return []
  let instructions ← word? data (10 + 2 * contours)
  let (flags, xStart) ← readFlags data (12 + 2 * contours + instructions) count
  let yStart := xStart + coordinateBytes 1 4 flags
  let stop := yStart + coordinateBytes 2 5 flags
  if !holds data xStart (stop - xStart) then none
  let xs := readCoordinates data 1 4 0 xStart flags
  let ys := readCoordinates data 2 5 0 yStart flags
  let closes := closings ends (ends.headD 0) count
  return (((flags.zip (xs.zip ys)).zip closes).map fun ((f, x, y), c) => ⟨x, y, flag f 0, c⟩)

def unit (z : Int) : Float32 := Float32.ofInt z

def traceSimple (transform : Transform) (drawing : Drawing) (points : List GlyphPoint) : Drawing :=
  (points.foldl
    (fun (t : Tracing) p =>
      let t := t.push ⟨unit p.x, unit p.y⟩ p.onCurve
      if p.closes then t.finish else t)
    (Tracing.start transform drawing)).drawing

/-! ## Composite glyphs -/

structure Component where
  glyph : Nat
  transform : Transform

/-- A number with 14 binary places. -/
def scale? (data : Array UInt8) (i : Nat) : Option Float32 := do
  return unit (← signedWord? data i) / 16384

def offset? (data : Array UInt8) (flags i : Nat) : Option (Float32 × Float32 × Nat) := do
  if !flag flags 1 then return (0, 0, i)
  else if flag flags 0 then
    return (unit (← signedWord? data i), unit (← signedWord? data (i + 2)), i + 4)
  else return (unit (← signedByte? data i), unit (← signedByte? data (i + 1)), i + 2)

def matrix? (data : Array UInt8) (flags i : Nat) : Option (Transform × Nat) := do
  if flag flags 7 then
    let t := { Transform.identity with
      a := ← scale? data i, b := ← scale? data (i + 2)
      c := ← scale? data (i + 4), d := ← scale? data (i + 6) }
    return (t, i + 8)
  else if flag flags 6 then
    return ({ Transform.identity with a := ← scale? data i, d := ← scale? data (i + 2) }, i + 4)
  else if flag flags 3 then
    let s ← scale? data i
    return ({ Transform.identity with a := s, d := s }, i + 2)
  else return (Transform.identity, i)

def component? (data : Array UInt8) (i : Nat) : Option (Component × Option Nat) := do
  let flags ← word? data i
  let glyph ← word? data (i + 2)
  let (e, f, i) ← offset? data flags (i + 4)
  let (t, i) ← matrix? data flags i
  return (⟨glyph, { t with e, f }⟩, if flag flags 5 then some i else none)

/-- The components from a position on, at most `limit`; reading stops where the data ends. -/
def components (data : Array UInt8) : Nat → Nat → List Component
  | 0, _ => []
  | limit + 1, i =>
      match component? data i with
      | none => []
      | some (c, none) => [c]
      | some (c, some next) => c :: components data limit next

def maxDepth : Nat := 32

/-- Draws a glyph from its data, a composite one by drawing its components one after the other, of
which those without data are left out. There is no drawing if the data is malformed or the glyphs
are nested too deep; `depth` levels are still allowed. -/
def traceGlyph (t : Tables) (depth : Nat) (data : Array UInt8) (transform : Transform)
    (drawing : Drawing) : Option Drawing :=
  match depth with
  | 0 => none
  | depth + 1 => do
      let contours ← signedWord? data 0
      if 0 < contours then
        if data.size < 10 then none
        return traceSimple transform drawing (← simplePoints? data contours.toNat)
      else if contours < 0 then
        if data.size < 10 then none
        (components data data.size 10).foldlM
          (fun drawing c =>
            match t.glyphData? c.glyph with
            | none => some drawing
            | some data => traceGlyph t depth data (transform.combine c.transform) drawing)
          drawing
      else return drawing

structure Outline where
  curves : List Curve
  left : Int
  bottom : Int
  right : Int
  top : Int

/-- A number truncated towards zero, if it then has 16 bits. -/
def truncated? (x : Float32) : Option Int :=
  if -32769 < x ∧ x < 32768 then some (truncated x) else none

def outline? (t : Tables) (glyph : Nat) : Option Outline := do
  let data ← t.glyphData? glyph
  let drawing ← traceGlyph t maxDepth data Transform.identity Drawing.blank
  let left ← truncated? drawing.box.left
  let bottom ← truncated? drawing.box.bottom
  let right ← truncated? drawing.box.right
  let top ← truncated? drawing.box.top
  if right ≤ left ∨ top ≤ bottom then none
  return ⟨drawing.close.curves.reverse, left, bottom, right, top⟩

end TwinScreen.Typeface
