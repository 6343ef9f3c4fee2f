/-!
# Bits of compressed data

Compressed data is a sequence of bits: the bytes in order, and of each byte the lowest bit first.
Numbers are stored lowest bit first. The data comes in pieces, and a reader may be held back at the
end of a piece.
-/
namespace TwinScreen.Deflate

/-- A place in compressed data. -/
structure Reader where
  data : Array UInt8
  /-- Where the pieces of the data end, in increasing order. -/
  ends : List Nat
  /-- How many bytes may be read. -/
  stop : Nat
  /-- Number of the next bit. -/
  position : Nat

namespace Reader

/-- Where pieces end, the first of which starts at a place. -/
def endsFrom (start : Nat) : List (Array UInt8) → List Nat
  | [] => []
  | piece :: more => (start + piece.size) :: endsFrom (start + piece.size) more

/-- The bits of data that comes in pieces. -/
def ofPieces (pieces : List (Array UInt8)) : Reader where
  data := pieces.foldl (· ++ ·) #[]
  ends := endsFrom 0 pieces
  stop := pieces.foldl (fun size piece => size + piece.size) 0
  position := 0

def has (r : Reader) (count : Nat) : Bool := r.position + count ≤ 8 * r.stop

/-- The reader held back at the end of the piece that it has reached. -/
def withinPiece (r : Reader) : Reader :=
  { r with stop := (r.ends.find? fun stop => r.position ≤ 8 * stop).getD r.stop }

/-- The next bit, as a number. -/
def bit? (r : Reader) : Option (Nat × Reader) :=
  if r.position / 8 < r.stop then
    match r.data[r.position / 8]? with
    | some b => some ((b.toNat >>> (r.position % 8)) % 2, { r with position := r.position + 1 })
    | none => none
  else none

/-- The number in the next `count` bits. -/
def bits? (r : Reader) : Nat → Option (Nat × Reader)
  | 0 => some (0, r)
  | count + 1 => do
      let (low, r) ← r.bit?
      let (high, r) ← bits? r count
      return (low + 2 * high, r)

/-- The place of the next whole byte. -/
def align (r : Reader) : Reader := { r with position := (r.position + 7) / 8 * 8 }

def byteIndex (r : Reader) : Nat := r.position / 8

def skipBytes (r : Reader) (count : Nat) : Reader :=
  { r with position := r.position + 8 * count }

end Reader

end TwinScreen.Deflate
