import TwinScreen.Proofs.Png.Rows

/-!
# Written images are read back

Every pixmap that has pixels and keeps the limits of reading can be written, and its file is read as
the same pixmap, whatever its colors are (`Portable.decode_encode`).
-/
namespace TwinScreen.Png

/-- The most bytes that a row of an image may take to be read. -/
def rowMax : Nat := 0x4000000

/-- A pixmap that an image file can hold and that the limits of reading let pass. -/
structure Portable (p : Pixmap) : Prop where
  valid : p.Valid
  width_range : 0 < p.width ∧ p.width < 0x80000000
  height_range : 0 < p.height ∧ p.height < 0x80000000
  row_le : p.width * pixelBytes ≤ rowMax

variable {p : Pixmap}

/-! ## Writing -/

def fileBytes (p : Pixmap) : List UInt8 :=
  signature ++ chunk headerTag (headerBytes p.width p.height) ++
    (dataChunks (Deflate.store (filteredRows p)) ++ endChunk)

theorem filteredRows_eq (p : Pixmap) :
    filteredRows p = unfiltered (rowList p.rowBytes p.height) := by
  have hposition (y : Nat) : p.position 0 y = y * (p.width * pixelBytes) := by
    simp [Pixmap.position]
  unfold filteredRows unfiltered rowList
  rw [List.flatMap_map]
  refine List.flatMap_congr fun y _ => ?_
  rw [Pixmap.rowBytes, hposition, hposition]

theorem Portable.encode_eq (h : Portable p) : encode p = .ok (fileBytes p).toArray := by
  have hwidth : Extent.ofSize p.width = p.width :=
    Nat.mod_eq_of_lt (Nat.lt_trans h.width_range.2 (by decide))
  have hheight : Extent.ofSize p.height = p.height :=
    Nat.mod_eq_of_lt (Nat.lt_trans h.height_range.2 (by decide))
  have hwidth_pos := h.width_range.1
  have hheight_pos := h.height_range.1
  unfold encode
  dsimp only
  rw [hwidth, hheight, if_neg (by omega), if_neg (not_not.mpr h.valid.size_eq), List.append_assoc]
  rfl

/-! ## Reading -/

theorem hasBytes_file (p : Pixmap) :
    HasBytes (fileBytes p).toArray 0 signature ∧
      HasBytes (fileBytes p).toArray 8 (chunk headerTag (headerBytes p.width p.height)) ∧
      HasBytes (fileBytes p).toArray 33
        (dataChunks (Deflate.store (filteredRows p)) ++ endChunk) := by
  obtain ⟨hstart, hdata⟩ := hasBytes_append.mp (hasBytes_self (fileBytes p))
  obtain ⟨hsignature, hheader⟩ := hasBytes_append.mp hstart
  have hplace : (signature ++ chunk headerTag (headerBytes p.width p.height)).length = 33 := by
    rw [List.length_append, length_chunk]
    rfl
  rw [hplace] at hdata
  exact ⟨hsignature, hheader, hdata⟩

theorem Portable.readStart_eq (h : Portable p) :
    readStart (fileBytes p).toArray = .ok (.start (plainHeader p.width p.height), 33, dataTag) := by
  obtain ⟨hsignature, hheader, hdata⟩ := hasBytes_file p
  have hread := readHeader_of_chunkAt
    (chunkAt_of_hasBytes hheader (by decide) (by rw [length_headerBytes]; decide))
    ⟨h.width_range.1, Nat.lt_trans h.width_range.2 (by decide)⟩
    ⟨h.height_range.1, Nat.lt_trans h.height_range.2 (by decide)⟩
  have himage : imageTooLarge (plainHeader p.width p.height) = false := by
    have hsize := h.valid.size_le
    rw [h.valid.size_eq] at hsize
    exact decide_eq_false (Nat.not_lt.mpr hsize)
  have hrow : rowTooLarge (.start (plainHeader p.width p.height)) = false :=
    decide_eq_false (Nat.not_lt.mpr h.row_le)
  obtain ⟨first, hfirst⟩ := exists_chunkAt_dataChunks (hasBytes_append.mp hdata).1
  unfold readStart
  rw [checkSignature_of_hasBytes hsignature, except_ok_bind, hread, except_ok_bind, himage,
    if_neg (by simp), readPreamble_of_chunkAt hfirst, except_ok_bind]
  dsimp only
  rw [hrow, if_neg (by simp)]
  rfl

/-- The samples of the file are the bytes of the pixmap. -/
theorem Portable.readSamples_eq (h : Portable p) :
    readSamples (fileBytes p).toArray = .ok ⟨p.width, p.height, .rgba, p.bytes⟩ := by
  obtain ⟨-, -, hdata⟩ := hasBytes_file p
  have hlength : ∀ y < p.height, (p.rowBytes y).length = p.width * pixelBytes :=
    fun y hy => (h.valid.hasRow hy).length_rowBytes
  obtain ⟨pieces, hgather, hpieces⟩ := gatherData_dataChunks _ hdata
    (Preamble.start (plainHeader p.width p.height)).nextNumber []
  rw [filteredRows_eq] at hpieces
  have hrows := rowsOf_store h.width_range.1 hlength hpieces
  unfold readSamples
  rw [h.readStart_eq]
  dsimp only
  rw [hgather]
  dsimp only
  rw [List.reverse_nil, List.nil_append, hrows]
  refine congrArg Except.ok ?_
  rw [samplesOf_rows hlength, ← Pixmap.toList_bytes h.valid.size_eq]

/-- Samples with four channels are read as the pixmap of the same bytes. -/
theorem decode_of_readSamples {file : Array UInt8} (hp : p.Valid)
    (h : readSamples file = .ok ⟨p.width, p.height, .rgba, p.bytes⟩) : decode file = .ok p := by
  have hcomplete : Samples.Complete ⟨p.width, p.height, .rgba, p.bytes⟩ :=
    ⟨hp.size_eq, hp.size_eq ▸ hp.size_le⟩
  unfold decode
  rw [h, except_ok_bind, hcomplete.toPixmap_eq, expanded_rgba p.width p.height hp.size_eq]
  rfl

/-- A pixmap that has been written is read as it was. -/
theorem Portable.decode_encode (h : Portable p) :
    ∃ file, encode p = .ok file ∧ decode file = .ok p :=
  ⟨_, h.encode_eq, decode_of_readSamples h.valid h.readSamples_eq⟩

end TwinScreen.Png
