import TwinScreen.Deflate.Bits

/-!
# Prefix codes

A prefix code is given by the lengths of its codewords alone: codewords of one length are
consecutive numbers in the order of their symbols, and follow on from the shorter ones. A code is
complete when every sequence of bits starts with a codeword.
-/
namespace TwinScreen.Deflate

def maxLength : Nat := 15

/-- A prefix code. -/
structure Codebook where
  /-- How many codewords there are of each length from 0 to 15. -/
  counts : Array Nat
  /-- The symbols with codewords, by length and then by number. -/
  symbols : Array Nat

namespace Codebook

def symbolsOfLength (lengths : List Nat) (length : Nat) : List Nat :=
  (lengths.zipIdx.filter fun (l, _) => l == length).map (·.2)

/-- The code with these lengths; a symbol of length 0 has no codeword. -/
def ofLengths (lengths : List Nat) : Codebook where
  counts := ((List.range (maxLength + 1)).map fun length =>
    if length = 0 then 0 else lengths.count length).toArray
  symbols := ((List.range maxLength).flatMap fun i => symbolsOfLength lengths (i + 1)).toArray

def count (c : Codebook) (length : Nat) : Nat := c.counts.getD length 0

/-- How many sequences of 15 bits start with a codeword. A sequence that starts with several counts
for each of them. -/
def taken (c : Codebook) : Nat :=
  (List.range maxLength).foldl
    (fun sum i => sum + (c.count (i + 1) <<< (maxLength - (i + 1)))) 0

/-- Room that the codewords leave in the space of all sequences of 15 bits. -/
def room (c : Codebook) : Int := (1 <<< maxLength : Nat) - (c.taken : Int)

def isComplete (c : Codebook) : Bool := c.room == 0

def isSingle (c : Codebook) : Bool := c.symbols.size == 1 && c.count 1 == 1

inductive Found where
  | symbol (s : Nat) (rest : Reader)
  /-- The data ends within the codeword. -/
  | ends
  /-- No codeword starts like this. -/
  | nothing

/-- Reads a codeword of which some bits are read: `code` is their number, `first` the number of the
first codeword of that length, `index` the place of its symbol. -/
def readFrom (c : Codebook) (r : Reader) (length code first index : Nat) : Nat → Found
  | 0 => .nothing
  | left + 1 =>
      match r.bit? with
      | none => .ends
      | some (b, r) =>
          let code := code + b
          let count := c.count length
          if code < first + count then
            match c.symbols[index + (code - first)]? with
            | some s => .symbol s r
            | none => .nothing
          else
            readFrom c r (length + 1) (2 * code) (2 * (first + count)) (index + count) left

def read (c : Codebook) (r : Reader) : Found := readFrom c r 1 0 0 0 maxLength

end Codebook

end TwinScreen.Deflate
