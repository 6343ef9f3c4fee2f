import TwinScreen.Deflate.Codebook

/-!
# Decompression

Compressed data starts with two bytes about itself; blocks follow, each stored or in a fixed or a
described prefix code; a checksum of four bytes, which is not compared, ends the data. No more bytes
are decompressed than are wanted. When there are enough, what stands between blocks is still looked
at, but only up to the end of the piece of data in which the last of them was found.
-/
namespace TwinScreen.Deflate

inductive Ending where
  /-- The last block and the checksum were read. -/
  | complete
  /-- There were enough bytes or no more data before that. -/
  | partially
  /-- The data makes no sense, as its first `seen` bits show. -/
  | malformed (seen : Nat)
  deriving DecidableEq, Repr

/-- The result of a part of the work: it goes on at a place, or everything ends. -/
inductive Progress (α : Type) where
  | going (value : α) (rest : Reader)
  | ended (ending : Ending)

namespace Progress

variable {α : Type}

/-- The data makes no sense, as some more bits show. Without these bits nothing can be said yet. -/
def flawed (r : Reader) (count : Nat) : Progress α :=
  .ended (if r.has count then .malformed (r.position + count) else .partially)

def ofBits (r : Reader) (count : Nat) : Progress Nat :=
  match r.bits? count with
  | some (n, r) => .going n r
  | none => .ended .partially

def ofCode (c : Codebook) (r : Reader) : Progress Nat :=
  match c.read r with
  | .symbol s r => .going s r
  | .ends => .ended .partially
  | .nothing => flawed r maxLength

/-- A symbol of the code for distances. Where there is none, ten bits show it. -/
def ofDistanceCode (c : Codebook) (r : Reader) : Progress Nat :=
  match c.read r with
  | .symbol s next => if s < 30 then .going s next else flawed r 10
  | .ends => if c.isComplete then .ended .partially else flawed r 10
  | .nothing => flawed r 10

end Progress

structure Output where
  bytes : Array UInt8
  /-- The place to go on from, or how everything ended. -/
  next : Except Ending Reader

/-! ## Codes of a block -/

structure Codes where
  literals : Codebook
  distances : Codebook

namespace Codes

/-- The codes of a block that describes none. -/
def fixed : Codes where
  literals := Codebook.ofLengths (List.replicate 144 8 ++ List.replicate 112 9 ++
    List.replicate 24 7 ++ List.replicate 8 8)
  distances := Codebook.ofLengths (List.replicate 32 5)

/-- The order in which the lengths of the code for lengths are stored. -/
def lengthOrder : List Nat := [16, 17, 18, 0, 8, 7, 9, 6, 10, 5, 11, 4, 12, 3, 13, 2, 14, 1, 15]

/-- Reads numbers of three bits for the symbols of a list. -/
def readTriples (r : Reader) : List Nat → Progress (List (Nat × Nat))
  | [] => .going [] r
  | symbol :: more =>
      match Progress.ofBits r 3 with
      | .ended e => .ended e
      | .going n r =>
          match readTriples r more with
          | .ended e => .ended e
          | .going others r => .going ((symbol, n) :: others) r

/-- Reads code lengths, with repetitions, until there are `total`. `done` holds those read, the
latest first. -/
def readLengths (c : Codebook) (total : Nat) (r : Reader) (done : List Nat) :
    Nat → Progress (List Nat)
  | 0 => .ended .partially
  | fuel + 1 =>
      if done.length = total then .going done.reverse r
      else if !r.has 7 then .ended .partially
      else
        let repeated (value? : Option Nat) (least bits : Nat) (r : Reader) : Progress (List Nat) :=
          match Progress.ofBits r bits, value? with
          | .ended e, _ => .ended e
          | .going _ r, none => .flawed r 0
          | .going extra r, some value =>
              if total < done.length + least + extra then .flawed r 0
              else readLengths c total r (List.replicate (least + extra) value ++ done) fuel
        match Progress.ofCode c r with
        | .ended e => .ended e
        | .going 16 r => repeated done.head? 3 2 r
        | .going 17 r => repeated (some 0) 3 3 r
        | .going 18 r => repeated (some 0) 11 7 r
        | .going length r => readLengths c total r (length :: done) fuel

/-- The codes with these lengths. The code for literals must be complete and have a codeword for
the end of the block; the code for distances may also be empty or have one codeword. -/
def ofLengths? (literals distances : List Nat) : Option Codes :=
  let codes : Codes := ⟨Codebook.ofLengths literals, Codebook.ofLengths distances⟩
  if literals.getD 256 0 ≠ 0 ∧ codes.literals.isComplete ∧
      (codes.distances.isComplete ∨ codes.distances.symbols.isEmpty ∨ codes.distances.isSingle) then
    some codes
  else none

def readDescription (r : Reader) : Progress Codes :=
  match Progress.ofBits r 14 with
  | .ended e => .ended e
  | .going n r =>
      let literals := n % 32 + 257
      let distances := n / 32 % 32 + 1
      if 286 < literals ∨ 30 < distances then .flawed r 0
      else
        match readTriples r (lengthOrder.take (n / 1024 + 4)) with
        | .ended e => .ended e
        | .going triples r =>
            let c := Codebook.ofLengths
              ((List.range 19).map fun symbol => (triples.lookup symbol).getD 0)
            if !c.isComplete then .flawed r 0
            else
              match readLengths c (literals + distances) r [] (literals + distances + 1) with
              | .ended e => .ended e
              | .going lengths r =>
                  match ofLengths? (lengths.take literals) (lengths.drop literals) with
                  | some codes => .going codes r
                  | none => .flawed r 0

end Codes

/-! ## Contents of a block -/

/-- The least length and the number of extra bits of a length symbol, counted from 257. -/
def lengthRange (symbol : Nat) : Nat × Nat :=
  if symbol < 8 then (symbol + 3, 0)
  else if symbol = 28 then (258, 0)
  else (((4 + symbol % 4) <<< (symbol / 4 - 1)) + 3, symbol / 4 - 1)

/-- The least distance and the number of extra bits of a distance symbol. -/
def distanceRange (symbol : Nat) : Nat × Nat :=
  if symbol < 4 then (symbol + 1, 0)
  else (((2 + symbol % 2) <<< (symbol / 2 - 1)) + 1, symbol / 2 - 1)

/-- The number in a range that the next bits choose. -/
def choose (range : Nat × Nat) (r : Reader) : Progress Nat :=
  match Progress.ofBits r range.2 with
  | .ended e => .ended e
  | .going extra r => .going (range.1 + extra) r

/-- Repeats bytes that came `distance` bytes before, one after the other. -/
def repeatBytes (bytes : Array UInt8) (distance : Nat) : Nat → Array UInt8
  | 0 => bytes
  | count + 1 =>
      repeatBytes (bytes.push (bytes.getD (bytes.size - distance) 0)) distance count

/-- Reads a distance and then repeats bytes, up to the wanted size. -/
def readRepeat (codes : Codes) (wanted : Nat) (bytes : Array UInt8) (length : Nat) (r : Reader) :
    Progress (Array UInt8) :=
  match Progress.ofDistanceCode codes.distances r with
  | .ended e => .ended e
  | .going symbol r =>
      match choose (distanceRange symbol) r with
      | .ended e => .ended e
      | .going distance r =>
          if bytes.size < distance then .flawed r 0
          else .going (repeatBytes bytes distance (min length (wanted - bytes.size))) r

/-- The end of a block behind enough bytes. It is recognized only if some bits follow it. -/
def readBlockEnd (codes : Codes) (bytes : Array UInt8) (r : Reader) : Output :=
  let r := r.withinPiece
  match codes.literals.read r with
  | .symbol 256 next => ⟨bytes, if r.has maxLength then .ok next else .error .partially⟩
  | _ => ⟨bytes, .error .partially⟩

/-- Decompresses the symbols of a block, of which there are at most `fuel`. -/
def readSymbols (codes : Codes) (wanted : Nat) (bytes : Array UInt8) (r : Reader) : Nat → Output
  | 0 => ⟨bytes, .error .partially⟩
  | fuel + 1 =>
      if wanted ≤ bytes.size then readBlockEnd codes bytes r
      else
        match Progress.ofCode codes.literals r with
        | .ended e => ⟨bytes, .error e⟩
        | .going symbol next =>
            if symbol < 256 then
              readSymbols codes wanted (bytes.push (UInt8.ofNat symbol)) next fuel
            else if symbol = 256 then ⟨bytes, .ok next⟩
            else if 286 ≤ symbol then ⟨bytes, .error (.malformed next.position)⟩
            else
              match choose (lengthRange (symbol - 257)) next with
              | .ended e => ⟨bytes, .error e⟩
              | .going length r =>
                  let size := bytes.size
                  match readRepeat codes wanted bytes length r with
                  | .ended e => ⟨bytes, .error e⟩
                  | .going bytes r =>
                      if wanted < size + length then ⟨bytes, .error .partially⟩
                      else readSymbols codes wanted bytes r fuel

def readStored (wanted : Nat) (bytes : Array UInt8) (r : Reader) : Output :=
  match Progress.ofBits r.align 32 with
  | .ended e => ⟨bytes, .error e⟩
  | .going n r =>
      let length := n % 65536
      let start := r.byteIndex
      let copied := min length (wanted - bytes.size)
      if n / 65536 ≠ 65535 - length then ⟨bytes, .error (.malformed r.position)⟩
      else if start + copied ≤ r.stop then
        let r := r.skipBytes copied
        let bytes := bytes ++ r.data.extract start (start + copied)
        let r := if wanted ≤ bytes.size then r.withinPiece else r
        ⟨bytes, if copied = length then .ok r else .error .partially⟩
      else ⟨bytes ++ r.data.extract start r.stop, .error .partially⟩

def readBlock (kind : Nat) (wanted : Nat) (bytes : Array UInt8) (r : Reader) : Output :=
  let symbolsMax := 8 * r.data.size + 1
  match kind with
  | 0 => readStored wanted bytes r
  | 1 => readSymbols Codes.fixed wanted bytes r symbolsMax
  | 2 =>
      match Codes.readDescription r with
      | .ended e => ⟨bytes, .error e⟩
      | .going codes r => readSymbols codes wanted bytes r symbolsMax
  | _ => ⟨bytes, .error (.malformed (r.position + 7))⟩

structure Inflated where
  bytes : Array UInt8
  ending : Ending

/-- Decompresses blocks up to the last one, of which there are at most `fuel`. A block takes at
least ten bits; fewer are not looked at. -/
def readBlocks (wanted : Nat) (bytes : Array UInt8) (r : Reader) : Nat → Inflated
  | 0 => ⟨bytes, .partially⟩
  | fuel + 1 =>
      if !r.has 10 then ⟨bytes, .partially⟩
      else
        match Progress.ofBits r 3 with
        | .ended e => ⟨bytes, e⟩
        | .going n r =>
            match readBlock (n / 2) wanted bytes r with
            | ⟨bytes, .error e⟩ => ⟨bytes, e⟩
            | ⟨bytes, .ok r⟩ =>
                if n % 2 = 1 then
                  ⟨bytes, if r.align.byteIndex + 4 ≤ r.stop then .complete else .partially⟩
                else readBlocks wanted bytes r fuel

/-- The two bytes at the start announce this kind of compression. -/
def headerReadable (first second : UInt8) : Bool :=
  first.toNat % 16 == 8 && first.toNat / 16 ≤ 7 && second.toNat / 32 % 2 == 0 &&
    (256 * first.toNat + second.toNat) % 31 == 0

/-- Decompresses data that comes in pieces until there are as many bytes as are wanted. -/
def inflate (wanted : Nat) (pieces : List (Array UInt8)) : Inflated :=
  let r := Reader.ofPieces pieces
  match r.data[0]?, r.data[1]? with
  | some first, some second =>
      if headerReadable first second then
        readBlocks wanted #[] { r with position := 16 } (8 * r.data.size)
      else ⟨#[], .malformed 16⟩
  | _, _ => ⟨#[], .partially⟩

end TwinScreen.Deflate
