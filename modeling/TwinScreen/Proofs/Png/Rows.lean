import TwinScreen.Png.Decode
import TwinScreen.Proofs.Deflate.Stored
import TwinScreen.Proofs.Pixmap.Rows
import TwinScreen.Proofs.Png.Chunks

/-!
# Unfiltered rows are read back

Rows that are written without prediction are found in the image data again, and their pixels, taken
one by one, give the bytes of the rows. Samples of which none is missing can be made a pixmap
(`Samples.Complete`).
-/
namespace TwinScreen.Png

/-! ## Reading rows -/

/-- Rows behind the number of the method that predicts nothing. -/
def unfiltered (rows : List (List UInt8)) : List UInt8 := rows.flatMap fun row => 0 :: row

/-- Rows of which nothing was predicted are read as they stand. -/
theorem readRows_unfiltered (rows : List (List UInt8)) {data : Array UInt8}
    {rowBytes position : Nat} (hlength : ∀ row ∈ rows, row.length = rowBytes)
    (h : HasBytes data position (unfiltered rows)) (pixelBytes : Nat) (previous : Array UInt8)
    (done : List (Array UInt8)) :
    readRows data pixelBytes rowBytes position previous done rows.length =
      .complete (done.reverse ++ rows.map List.toArray).toArray := by
  induction rows generalizing position previous done with
  | nil => simp [readRows]
  | cons row more ih =>
    have hrow : row.length = rowBytes := hlength row List.mem_cons_self
    have hsplit : HasBytes data position ([0] ++ row ++ unfiltered more) := h
    obtain ⟨hfirst, hmore⟩ := hasBytes_append.mp hsplit
    obtain ⟨hmethod, hbytes⟩ := hasBytes_append.mp hfirst
    have hinside := hfirst.le_size (by simp)
    rw [List.length_append, List.length_singleton, hrow] at hinside
    rw [List.length_append, List.length_singleton, hrow, ← Nat.add_assoc] at hmore
    have hextract : data.extract (position + 1) (position + 1 + rowBytes) = row.toArray := by
      rw [← hrow]
      exact hbytes.extract_eq
    have hzero : data.getD position 0 = 0 := by
      rw [Array.getD_eq_getD_getElem?, hmethod.getElem?_start, Option.getD_some]
    rw [List.length_cons, readRows]
    dsimp only
    rw [if_neg (by omega), hzero, if_neg (by decide), hextract]
    have hothers := ih (fun r hr => hlength r (List.mem_cons_of_mem row hr)) hmore row.toArray
      (row.toArray :: done)
    rw [List.reverse_cons, List.append_assoc, List.singleton_append] at hothers
    exact hothers

variable {width height : Nat} {row : Nat → List UInt8}

@[simp] theorem width_plainHeader (width height : Nat) : (plainHeader width height).width = width :=
  rfl

@[simp] theorem height_plainHeader (width height : Nat) :
    (plainHeader width height).height = height := rfl

theorem passes_plainHeader (width height : Nat) :
    (plainHeader width height).passes = [Pass.whole] := rfl

theorem rowBytes_plainHeader (width height : Nat) :
    (plainHeader width height).rowBytes width = width * pixelBytes := by
  unfold Header.rowBytes plainHeader Header.pixelBits PixelKind.count pixelBytes
  dsimp only
  omega

theorem columns_whole (width : Nat) : Pass.whole.columns width = width := by
  simp [Pass.columns, Pass.whole]

theorem rows_whole (height : Nat) : Pass.whole.rows height = height := by
  simp [Pass.rows, Pass.whole]

/-- The rows of an image, counted from the top. -/
def rowList (row : Nat → List UInt8) (height : Nat) : List (List UInt8) :=
  (List.range height).map row

theorem length_mem_rowList (hlength : ∀ y < height, (row y).length = width * pixelBytes) :
    ∀ r ∈ rowList row height, r.length = width * pixelBytes := by
  intro r hr
  obtain ⟨y, hy, rfl⟩ := List.mem_map.mp hr
  exact hlength y (List.mem_range.mp hy)

theorem readPasses_unfiltered {data : Array UInt8} (hwidth : 0 < width)
    (hlength : ∀ y < height, (row y).length = width * pixelBytes)
    (h : HasBytes data 0 (unfiltered (rowList row height))) :
    readPasses data (plainHeader width height) 0 [] (plainHeader width height).passes =
      .complete [(Pass.whole, ((rowList row height).map List.toArray).toArray)] := by
  have hcount : (rowList row height).length = height := by simp [rowList]
  have hrows := readRows_unfiltered (rowList row height) (length_mem_rowList hlength) h
    (plainHeader width height).pixelBytes #[] []
  rw [hcount] at hrows
  rw [passes_plainHeader, readPasses, width_plainHeader, height_plainHeader, columns_whole,
    rows_whole, if_neg (by omega), rowBytes_plainHeader, hrows]
  rfl

theorem length_unfiltered (hlength : ∀ y < height, (row y).length = width * pixelBytes) :
    (unfiltered (rowList row height)).length = wantedBytes (plainHeader width height) := by
  have hrows : (unfiltered (rowList row height)).length = height * (1 + width * pixelBytes) := by
    unfold unfiltered rowList
    rw [List.flatMap_map]
    refine length_flatMap_range fun y hy => ?_
    rw [List.length_cons, hlength y hy, Nat.add_comm]
  rw [hrows, wantedBytes, passes_plainHeader, List.foldl_cons, List.foldl_nil, width_plainHeader,
    height_plainHeader, columns_whole, rows_whole, rowBytes_plainHeader, Nat.zero_add]

/-- Nothing is wrong with a first row without prediction. -/
theorem checkFirstRow_unfiltered (width height : Nat) (rows : List (List UInt8)) :
    checkFirstRow (.start (plainHeader width height)) (unfiltered rows).toArray = .ok () := by
  have hmethod : (unfiltered rows).toArray.getD 0 0 = 0 := by
    cases rows <;> rfl
  unfold checkFirstRow
  split
  · rfl
  · rw [hmethod, if_neg (by decide)]
    rfl

/-- The rows of stored image data are the rows that were stored. -/
theorem rowsOf_store {pieces : List (Array UInt8)} (hwidth : 0 < width)
    (hlength : ∀ y < height, (row y).length = width * pixelBytes)
    (h : pieces.flatMap Array.toList = Deflate.store (unfiltered (rowList row height))) :
    rowsOf (.start (plainHeader width height)) pieces .otherChunk =
      .ok [(Pass.whole, ((rowList row height).map List.toArray).toArray)] := by
  obtain ⟨ending, hending, hinflate⟩ := Deflate.inflate_store _ h
  rw [length_unfiltered hlength] at hinflate
  have hpasses := readPasses_unfiltered hwidth hlength (hasBytes_self _)
  have henough : wantedBytes (plainHeader width height) ≤
      (unfiltered (rowList row height)).toArray.size :=
    Nat.le_of_eq (length_unfiltered hlength).symm
  unfold rowsOf
  dsimp only [Preamble.start]
  rw [hinflate]
  -- Whether the reader has come to the checksum or not, all rows are there.
  rcases hending with rfl | rfl
  all_goals
    dsimp only
    rw [← Preamble.start, checkFirstRow_unfiltered, except_ok_bind, hpasses]
    dsimp only
    rw [if_neg (by simp), if_pos (.inr henough)]
    rfl

/-! ## Samples -/

theorem Pass.contains_iff {p : Pass} {x y : Nat} : p.contains x y = true ↔
    (p.firstColumn ≤ x ∧ (x - p.firstColumn) % p.columnStep = 0) ∧
      (p.firstRow ≤ y ∧ (y - p.firstRow) % p.rowStep = 0) := by
  simp only [contains, Bool.and_eq_true, decide_eq_true_eq, beq_iff_eq, and_assoc]

theorem Pass.contains_whole (x y : Nat) : whole.contains x y = true :=
  contains_iff.mpr ⟨⟨Nat.zero_le x, Nat.mod_one _⟩, ⟨Nat.zero_le y, Nat.mod_one _⟩⟩

/-- A pixel of a stored row is four of its bytes. -/
theorem pixelAt_rows {x y : Nat} (hy : y < height) :
    pixelAt (plainHeader width height)
        [(Pass.whole, ((rowList row height).map List.toArray).toArray)] x y =
      ((row y).drop (x * pixelBytes)).take pixelBytes := by
  unfold pixelAt
  rw [List.find?_cons_of_pos (by exact Pass.contains_whole x y)]
  have hrow : ((rowList row height).map List.toArray).toArray.getD y #[] = (row y).toArray := by
    simp [rowList, hy]
  dsimp only [Pass.whole]
  rw [Nat.sub_zero, Nat.sub_zero, Nat.div_one, Nat.div_one, hrow]
  have hbytes : (plainHeader width height).pixelBytes = pixelBytes := by
    simp [Header.pixelBytes, Header.pixelBits, plainHeader, PixelKind.count, pixelBytes]
  have hend : (x + 1) * pixelBytes - x * pixelBytes = pixelBytes := by
    rw [Nat.succ_mul, Nat.add_sub_cancel_left]
  unfold storedPixel
  rw [if_neg (by simp [plainHeader]), hbytes, Array.toList_extract, List.extract_eq_take_drop, hend]

/-- The samples of an image are those of its pixels, row by row. -/
theorem toList_samplesOf (p : Preamble) (rows : List (Pass × Array (Array UInt8))) :
    (samplesOf p rows).data.toList = (List.range p.header.height).flatMap fun y =>
      (List.range p.header.width).flatMap fun x => pixelSamples p (pixelAt p.header rows x y) := by
  unfold samplesOf
  exact toList_foldl (fun data y => toList_foldl (fun data x => by rw [Array.toList_appendList])
    (List.range p.header.width) data) (List.range p.header.height) #[]

theorem samplesOf_rows (hlength : ∀ y < height, (row y).length = width * pixelBytes) :
    samplesOf (.start (plainHeader width height))
        [(Pass.whole, ((rowList row height).map List.toArray).toArray)] =
      ⟨width, height, .rgba, ((List.range height).flatMap row).toArray⟩ := by
  refine congrArg (Samples.mk width height .rgba) (Array.toList_inj.mp ?_)
  refine (toList_samplesOf ..).trans (List.flatMap_congr fun y hy => ?_)
  have hrow := hlength y (List.mem_range.mp hy)
  have hpixels : ∀ x ∈ List.range width, pixelSamples (.start (plainHeader width height))
      (pixelAt (plainHeader width height)
        [(Pass.whole, ((rowList row height).map List.toArray).toArray)] x y) =
      ((row y).drop (x * pixelBytes)).take pixelBytes :=
    fun x _ => pixelAt_rows (List.mem_range.mp hy)
  exact (List.flatMap_congr hpixels).trans (by rw [flatMap_slices, ← hrow, List.take_length])

theorem Channels.count_pos (c : Channels) : 0 < c.count := by
  cases c <;> decide

namespace Samples

/-- The samples of a picture are all there, and they can be made a pixmap. -/
structure Complete (s : Samples) : Prop where
  size_eq : s.data.size = s.width * s.height * s.channels.count
  addressable : s.width * s.height * pixelBytes ≤ Size.bytesMax

theorem size_expanded (s : Samples) :
    s.expanded.size = 4 * (s.data.size / s.channels.count) := Array.size_ofFn

variable {s : Samples}

/-- There is one group of samples for each pixel. -/
theorem Complete.groups_eq (hs : s.Complete) :
    s.data.size / s.channels.count = s.width * s.height := by
  rw [hs.size_eq, Nat.mul_div_cancel _ s.channels.count_pos]

theorem Complete.size_expanded (hs : s.Complete) :
    s.expanded.size = s.width * s.height * pixelBytes := by
  rw [Samples.size_expanded, hs.groups_eq, Nat.mul_comm]
  rfl

/-- All samples of an image are enough for the bytes of its pixmap. -/
theorem Complete.toPixmap_eq (hs : s.Complete) :
    s.toPixmap = .ok ⟨s.width, s.height, s.expanded⟩ := by
  have hroom := hs.addressable
  unfold Size.bytesMax pixelBytes at hroom
  unfold toPixmap Pixmap.ofBytes
  rw [Size.mul_of_lt (by unfold Size.bound; omega), except_ok_bind,
    Size.mul_of_lt (by unfold Size.bound pixelBytes; omega), except_ok_bind,
    if_pos hs.size_expanded]
  rfl

end Samples

/-- Samples with four channels are the bytes of a pixmap as they stand. -/
theorem expanded_rgba (width height : Nat) {count : Nat} {data : Array UInt8}
    (h : data.size = count * 4) : (Samples.mk width height .rgba data).expanded = data := by
  have hsize : 4 * (data.size / Channels.rgba.count) = data.size := by
    rw [show Channels.rgba.count = 4 from rfl]
    omega
  unfold Samples.expanded
  refine Array.ext ?_ fun i hi hi' => ?_
  · rw [Array.size_ofFn]
    exact hsize
  · have hplace : 4 * (i / 4) + i % 4 = i := by omega
    rw [Array.getElem_ofFn]
    simp [Channels.expand, hplace, hi']

end TwinScreen.Png
