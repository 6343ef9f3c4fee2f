import TwinScreen.Bounds
import TwinScreen.Typeface.Outline

/-!
# Coverage of pixels by outlines

How much of every pixel of a box lies inside an outline is found from the lines of its contours
alone: each line adds, row by row, the signed area between it and the right edge to the cells where
it passes, such that the running sum over the cells is the coverage. Curves are divided into lines
first.
-/
namespace TwinScreen.Typeface

/-- The cells of a box, row by row, with a few more behind the last one. -/
structure Cells where
  width : Nat
  height : Nat
  sums : Array Float32

namespace Cells

def blank (width height : Nat) : Except Fault Cells := do
  let count ← Size.add (← Size.mul width height) 4
  if 4 * count ≤ Size.bytesMax then
    return { width, height, sums := Array.replicate count 0 }
  else throw .capacity

/-- Adds values to cells in order, up to the first cell that does not exist; tells whether all
exist. -/
def add (c : Cells) : List (Nat × Float32) → Cells × Bool
  | [] => (c, true)
  | (i, value) :: more =>
      if i < c.sums.size then
        add { c with sums := c.sums.modify i (· + value) } more
      else (c, false)

def number (n : Nat) : Float32 := (UInt64.ofNat n).toFloat32

/-- The values that a line adds to a row in which it goes from `x₀` to `x₁ ≥ x₀` and covers the
signed height `d`; `first` is the cell of column `i`, where it starts, `j` the column where it
ends, and `mid` the mean of its two ends. -/
def rowValues (first : Nat) (i j : Int) (x₀ x₁ mid d : Float32) : List (Nat × Float32) :=
  if j ≤ i + 1 then
    let m := mid - floor x₀
    [(first, d - d * m), (first + 1, d * m)]
  else
    let r := 1 / (x₁ - x₀)
    let f := x₀ - floor x₀
    let a₀ := 0.5 * r * (1 - f) * (1 - f)
    let g := x₁ - ceil x₁ + 1
    let am := 0.5 * r * g * g
    let columns := (j - i).toNat
    let inner : List (Nat × Float32) :=
      if columns = 2 then [(first + 1, d * (1 - a₀ - am))]
      else
        let a₁ := r * (1.5 - f)
        let a₂ := a₁ + number (columns - 3) * r
        (first + 1, d * (a₁ - a₀)) ::
          ((List.range (columns - 3)).map fun n => (first + 2 + n, d * r)) ++
          [(first + columns - 1, d * (1 - a₂ - am))]
    (first, d * a₀) :: inner ++ [(first + columns, d * am)]

/-- A line that passes from column `i` to column `j` of a row leaves the box on the left with more
than the two cells in which a short line stays. -/
def leavesLeft (i j : Int) : Bool := i + 1 < j && i + 2 < 0

/-- Adds the part of a line that lies in the rows from `y` on. The line goes down from height `top`
to height `bottom`; `x` is where it enters row `y`, and `rows` rows are left. -/
def addRows (c : Cells) (top bottom slope direction : Float32) (x : Float32) (y : Nat) :
    Nat → Except Fault Cells
  | 0 => .ok c
  | rows + 1 =>
      let dy := smaller (number (y + 1)) bottom - larger (number y) top
      let next := x + slope * dy
      let (x₀, x₁) := if x < next then (x, next) else (next, x)
      let i := truncated (floor x₀)
      let j := truncated (ceil x₁)
      let first := (y * c.width : Int) + i
      if first < 0 then
        addRows c top bottom slope direction x (y + 1) rows
      else if leavesLeft i j then .error .overflow
      else
        let values := rowValues first.toNat i j x₀ x₁ (0.5 * (x + next)) (dy * direction)
        let (c, complete) := c.add values
        addRows c top bottom slope direction (if complete then next else x) (y + 1) rows

/-- Adds a straight line. A level one encloses no area. -/
def addLine (c : Cells) (p q : Point) : Except Fault Cells :=
  if (p.y - q.y).abs ≤ Float32.ofBits 0x34000000 then .ok c
  else
    let (direction, p, q) : Float32 × Point × Point := if p.y < q.y then (1, p, q) else (-1, q, p)
    let slope := (q.x - p.x) / (q.y - p.y)
    let x := if p.y < 0 then p.x - p.y * slope else p.x
    let start := (larger p.y 0).toUInt64.toNat
    let stop := min c.height (ceil q.y).toUInt64.toNat
    addRows c p.y q.y slope direction x start (stop - start)

/-- Adds `count` lines along a curve, from the parameter `t` and the point `p` there, and a last
one to its end. -/
def addPieces (c : Cells) (p₀ p₁ p₂ : Point) (step t : Float32) (p : Point) :
    Nat → Except Fault Cells
  | 0 => c.addLine p p₂
  | count + 1 => do
      let t := t + step
      let next := Point.lerp t (Point.lerp t p₀ p₁) (Point.lerp t p₁ p₂)
      addPieces (← c.addLine p next) p₀ p₁ p₂ step t next count

/-- Adds a quadratic curve, as more lines the farther it is from straight. -/
def addQuadratic (c : Cells) (p₀ p₁ p₂ : Point) : Except Fault Cells := do
  let dx := p₀.x - 2 * p₁.x + p₂.x
  let dy := p₀.y - 2 * p₁.y + p₂.y
  let deviation := dx * dx + dy * dy
  if deviation < 0.333 then
    c.addLine p₀ p₂
  else
    let count ← Size.add 1 (floor (3 * deviation).sqrt.sqrt).toUInt64.toNat
    addPieces c p₀ p₁ p₂ (1 / number count) 0 p₀ (count - 1)

def addCurve (c : Cells) : Curve → Except Fault Cells
  | .line p q => c.addLine p q
  | .quadratic p₀ p₁ p₂ => c.addQuadratic p₀ p₁ p₂

/-- Column, row and coverage of the cells of the box, row by row. -/
def coverage (c : Cells) : List (Nat × Nat × Float32) :=
  ((List.range (c.width * c.height)).foldl
    (fun (sum, done) i =>
      let sum : Float32 := sum + c.sums.getD i 0
      (sum, (i % c.width, i / c.width, sum.abs) :: done))
    ((0 : Float32), ([] : List (Nat × Nat × Float32)))).2.reverse

end Cells

end TwinScreen.Typeface
