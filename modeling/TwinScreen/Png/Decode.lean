import TwinScreen.Png.Data

/-!
# Reading image files

Stored numbers of 1, 2 or 4 bits are stretched to 8 bits, of those of 16 bits the upper half is
kept, and palette entries are replaced by their colors. What comes behind the image data is not
looked at.
-/
namespace TwinScreen.Png

/-! ## Pixels -/

/-- The stored number at place `i` of a row, of at most 8 bits. -/
def storedNumber (depth : Nat) (row : Array UInt8) (i : Nat) : Nat :=
  let byte := (row.getD (i * depth / 8) 0).toNat
  (byte >>> (8 - depth - i * depth % 8)) % (1 <<< depth)

/-- The bytes of the stored pixel in a column, the smaller numbers one to a byte. -/
def storedPixel (h : Header) (row : Array UInt8) (column : Nat) : List UInt8 :=
  if h.depth < 8 then [UInt8.ofNat (storedNumber h.depth row column)]
  else (row.extract (column * h.pixelBytes) ((column + 1) * h.pixelBytes)).toList

def upperBytes : List UInt8 → List UInt8
  | high :: _ :: more => high :: upperBytes more
  | _ => []

/-- A stored number of few bits stretched to 8 bits. -/
def stretch (depth : Nat) (n : UInt8) : UInt8 := UInt8.ofNat (n.toNat * (255 / ((1 <<< depth) - 1)))

/-- Alpha of a palette entry. More alphas than entries count as none. -/
def paletteAlpha (palette : Array UInt8) (alphas : List UInt8) (entry : Nat) : UInt8 :=
  if palette.size / 3 < alphas.length then 255 else alphas.getD entry 255

def pixelSamples (p : Preamble) (pixel : List UInt8) : List UInt8 :=
  match p.header.kind with
  | .indexed =>
      let palette := p.palette.getD #[]
      let entry := (pixel.headD 0).toNat
      let color := if entry < palette.size / 3
        then (palette.extract (3 * entry) (3 * entry + 3)).toList else [0, 0, 0]
      match p.transparency with
      | some alphas => color ++ [paletteAlpha palette alphas entry]
      | none => color
  | _ =>
      let samples :=
        if p.header.depth < 8 then pixel.map (stretch p.header.depth)
        else if p.header.depth = 16 then upperBytes pixel
        else pixel
      match p.transparency with
      | some transparent => samples ++ [if pixel = transparent then 0 else 255]
      | none => samples

/-- The stored pixel of the whole image, from the rows of the passes. -/
def pixelAt (h : Header) (rows : List (Pass × Array (Array UInt8))) (x y : Nat) : List UInt8 :=
  match rows.find? fun (pass, _) => pass.contains x y with
  | some (pass, rows) =>
      storedPixel h (rows.getD ((y - pass.firstRow) / pass.rowStep) #[])
        ((x - pass.firstColumn) / pass.columnStep)
  | none => []

def samplesOf (p : Preamble) (rows : List (Pass × Array (Array UInt8))) : Samples :=
  let h := p.header
  { width := h.width
    height := h.height
    channels := h.channels p.transparency.isSome
    data := (List.range h.height).foldl
      (fun data y => (List.range h.width).foldl
        (fun data x => data ++ pixelSamples p (pixelAt h rows x y)) data)
      #[] }

def rowTooLarge (p : Preamble) : Bool :=
  0x4000000 < p.header.width * (p.header.channels p.transparency.isSome).count

def imageTooLarge (h : Header) : Bool :=
  Size.bytesMax < h.width * h.height * (h.channels false).count

/-- What stands in front of the image data, with the position and the name of its first chunk. -/
def readStart (file : Array UInt8) : Except Flaw (Preamble × Nat × Nat) := do
  checkSignature file
  let header ← readHeader file
  if imageTooLarge header then throw .tooLarge
  let (p, position, tag) ← readPreamble file (.start header) 33
  if rowTooLarge p then throw .tooLarge
  return (p, position, tag)

def readSamples (file : Array UInt8) : Except DecodeError Samples :=
  match readStart file with
  | .error e => .error (.flaw e)
  | .ok (p, position, tag) =>
      let (pieces, dataEnd) := gatherData file tag p.nextNumber [] position
      (rowsOf p pieces dataEnd).map (samplesOf p)

def decode (file : Array UInt8) : Except DecodeError Pixmap := do
  (← readSamples file).toPixmap.mapError .fault

end TwinScreen.Png
