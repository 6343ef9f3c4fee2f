import TwinScreen.Png.Header

/-!
# Rows of image data

The image data is divided into rows, each with a byte in front that says how its bytes were
predicted from those to the left and above. An interlaced image comes as seven smaller images, the
passes, each of which has every so many columns and rows of the whole.
-/
namespace TwinScreen.Png

/-- Columns and rows of a pass: the first one, and the distance to the next. -/
structure Pass where
  firstColumn : Nat
  firstRow : Nat
  columnStep : Nat
  rowStep : Nat
  deriving DecidableEq, Repr

namespace Pass

def whole : Pass := ⟨0, 0, 1, 1⟩

def interlaced : List Pass :=
  [⟨0, 0, 8, 8⟩, ⟨4, 0, 8, 8⟩, ⟨0, 4, 4, 8⟩, ⟨2, 0, 4, 4⟩, ⟨0, 2, 2, 4⟩, ⟨1, 0, 2, 2⟩,
    ⟨0, 1, 1, 2⟩]

def columns (p : Pass) (width : Nat) : Nat :=
  (width + p.columnStep - 1 - p.firstColumn) / p.columnStep

def rows (p : Pass) (height : Nat) : Nat := (height + p.rowStep - 1 - p.firstRow) / p.rowStep

def contains (p : Pass) (x y : Nat) : Bool :=
  p.firstColumn ≤ x && (x - p.firstColumn) % p.columnStep == 0 &&
    p.firstRow ≤ y && (y - p.firstRow) % p.rowStep == 0

end Pass

namespace Header

def passes (h : Header) : List Pass := if h.interlaced then Pass.interlaced else [Pass.whole]

end Header

/-! ## Prediction -/

/-- Of the bytes to the left, above, and above to the left, the one nearest to left plus above minus
above left; of two that are equally near the one named first. -/
def nearest (left above aboveLeft : Nat) : Nat :=
  let estimate : Int := (left : Int) + above - aboveLeft
  let toLeft := (estimate - left).natAbs
  let toAbove := (estimate - above).natAbs
  let toAboveLeft := (estimate - aboveLeft).natAbs
  if toLeft ≤ toAbove ∧ toLeft ≤ toAboveLeft then left
  else if toAbove ≤ toAboveLeft then above
  else aboveLeft

def predict (method : Nat) (left above aboveLeft : UInt8) : UInt8 :=
  match method with
  | 0 => 0
  | 1 => left
  | 2 => above
  | 3 => UInt8.ofNat ((left.toNat + above.toNat) / 2)
  | _ => UInt8.ofNat (nearest left.toNat above.toNat aboveLeft.toNat)

/-- The bytes of a row from their differences to the predicted ones. `pixelBytes` is the distance to
the byte to the left, `previous` the row above. -/
def unpredict (method pixelBytes : Nat) (previous differences : Array UInt8) : Array UInt8 :=
  if method = 0 then differences
  else differences.foldl
    (fun row b =>
      let i := row.size
      let left := if pixelBytes ≤ i then row.getD (i - pixelBytes) 0 else 0
      let aboveLeft := if pixelBytes ≤ i then previous.getD (i - pixelBytes) 0 else 0
      row.push (b + predict method left (previous.getD i 0) aboveLeft))
    #[]

/-! ## Reading rows -/

/-- How the reading of rows ended. -/
inductive RowsRead (α : Type) where
  | complete (rows : α)
  | unknownMethod
  /-- The data ends before the last row does. -/
  | short

def methodMax : Nat := 4

/-- Reads `count` rows of `rowBytes` bytes from a position on; `done` holds those read, the latest
first. -/
def readRows (data : Array UInt8) (pixelBytes rowBytes position : Nat) (previous : Array UInt8)
    (done : List (Array UInt8)) : Nat → RowsRead (Array (Array UInt8))
  | 0 => .complete done.reverse.toArray
  | count + 1 =>
      let start := position + 1
      if data.size < start + rowBytes then .short
      else
        let method := (data.getD position 0).toNat
        if methodMax < method then .unknownMethod
        else
          let row := unpredict method pixelBytes previous (data.extract start (start + rowBytes))
          readRows data pixelBytes rowBytes (start + rowBytes) row (row :: done) count

/-- Reads the rows of one pass after the other; a pass without columns has no rows. -/
def readPasses (data : Array UInt8) (h : Header) (position : Nat)
    (done : List (Pass × Array (Array UInt8))) :
    List Pass → RowsRead (List (Pass × Array (Array UInt8)))
  | [] => .complete done.reverse
  | pass :: more =>
      let columns := pass.columns h.width
      let count := if columns = 0 then 0 else pass.rows h.height
      let rowBytes := h.rowBytes columns
      match readRows data h.pixelBytes rowBytes position #[] [] count with
      | .complete rows =>
          readPasses data h (position + count * (1 + rowBytes)) ((pass, rows) :: done) more
      | .unknownMethod => .unknownMethod
      | .short => .short

/-- The length of the first row with its method. -/
def firstRowBytes (h : Header) : Nat :=
  match h.passes.find? fun p => p.columns h.width ≠ 0 ∧ p.rows h.height ≠ 0 with
  | some p => 1 + h.rowBytes (p.columns h.width)
  | none => 0

end TwinScreen.Png
