import TwinScreen.Png.Data
import TwinScreen.Png.Encode
import TwinScreen.Proofs.Bytes

/-!
# Written chunks are read back

A chunk that stands in a file is read with its length, its name and its bytes, and its checksum
agrees (`ChunkAt`). So the header is read as it was written, and the image data is gathered from
its chunks again.
-/
namespace TwinScreen.Png

open BigEndian

/-! ## One chunk -/

theorem length_chunk (tag : Nat) (bytes : List UInt8) :
    (chunk tag bytes).length = 12 + bytes.length := by
  simp only [chunk, List.length_append, length_longBytes]
  omega

/-- A flawless chunk stands at a position of a file. -/
structure ChunkAt (file : Array UInt8) (position tag : Nat) (bytes : List UInt8) : Prop where
  head : chunkHead? file position = some (bytes.length, tag)
  body : file.extract (position + 8) (position + 8 + bytes.length) = bytes.toArray
  inside : position + 12 + bytes.length ≤ file.size
  checked : checksumAgrees file position bytes.length = true

/-- Where the bytes of a chunk stand, the chunk is read without a flaw. -/
theorem chunkAt_of_hasBytes {file : Array UInt8} {position tag : Nat} {bytes : List UInt8}
    (h : HasBytes file position (chunk tag bytes)) (htag : tag < 0x100000000)
    (hlength : bytes.length < 0x100000000) : ChunkAt file position tag bytes := by
  have hinside := h.le_size (List.ne_nil_of_length_pos (by rw [length_chunk]; omega))
  rw [length_chunk] at hinside
  unfold chunk at h
  dsimp only at h
  obtain ⟨h, hchecksum⟩ := hasBytes_append.mp h
  obtain ⟨hcount, hnamed⟩ := hasBytes_append.mp h
  obtain ⟨hname, hbytes⟩ := hasBytes_append.mp hnamed
  have hcovered := hnamed.extract_eq
  have hbody := hbytes.extract_eq
  simp only [List.length_append, length_longBytes] at hname hbytes hchecksum hcovered hbody
  refine ⟨?_, ?_, by omega, ?_⟩
  · unfold chunkHead?
    rw [long?_of_hasBytes hcount hlength, long?_of_hasBytes hname htag]
    rfl
  · rwa [show position + 4 + 4 = position + 8 by omega] at hbody
  · have hend : position + 4 + (4 + bytes.length) = position + 8 + bytes.length := by omega
    have hbehind : position + (4 + (4 + bytes.length)) = position + 8 + bytes.length := by omega
    rw [hend] at hcovered
    rw [hbehind] at hchecksum
    unfold checksumAgrees
    rw [hcovered, ← Checksum.crc32_toList, long?_of_hasBytes hchecksum (UInt32.toNat_lt _)]
    exact beq_self_eq_true _

/-! ## The start of a file -/

theorem checkSignature_of_hasBytes {file : Array UInt8} (h : HasBytes file 0 signature) :
    checkSignature file = .ok () := by
  have hsize := h.le_size (by decide)
  have hsplit : HasBytes file 0 (signature.take 4 ++ signature.drop 4) := h
  obtain ⟨hfront, hback⟩ := hasBytes_append.mp hsplit
  have hfirst : file.extract 0 4 = (signature.take 4).toArray := hfront.extract_eq
  have hsecond : file.extract 4 8 = (signature.drop 4).toArray := hback.extract_eq
  have hlength : signature.length = 8 := rfl
  unfold checkSignature
  rw [if_neg (by omega), hfirst, if_neg (by simp), if_neg (by omega), hsecond, if_neg (by simp)]

/-- The header of a file that stores red, green, blue and alpha with 8 bits each. -/
def plainHeader (width height : Nat) : Header := ⟨width, height, 8, .rgba, false⟩

theorem length_headerBytes (width height : Nat) : (headerBytes width height).length = 13 := rfl

theorem ofBytes?_headerBytes {width height : Nat} (hwidth : 0 < width ∧ width < 0x100000000)
    (hheight : 0 < height ∧ height < 0x100000000) :
    Header.ofBytes? (headerBytes width height).toArray = some (plainHeader width height) := by
  have hbytes := hasBytes_self (headerBytes width height)
  obtain ⟨h, hrest⟩ := hasBytes_append.mp hbytes
  obtain ⟨hw, hh⟩ := hasBytes_append.mp h
  have hw' : long? (headerBytes width height).toArray 0 = some width :=
    long?_of_hasBytes hw hwidth.2
  have hh' : long? (headerBytes width height).toArray 4 = some height :=
    long?_of_hasBytes hh hheight.2
  have hdepth : byte? (headerBytes width height).toArray 8 = some 8 := rfl
  have hkind : byte? (headerBytes width height).toArray 9 = some 6 := rfl
  have hcompression : byte? (headerBytes width height).toArray 10 = some 0 := rfl
  have hfilter : byte? (headerBytes width height).toArray 11 = some 0 := rfl
  have hinterlace : byte? (headerBytes width height).toArray 12 = some 0 := rfl
  have hallowed : ¬ (width = 0 ∨ height = 0 ∨ !PixelKind.rgba.allows 8) := by
    simp only [not_or]
    exact ⟨by omega, by omega, by decide⟩
  unfold Header.ofBytes?
  rw [hw', hh', hdepth, hkind, hcompression, hfilter, hinterlace]
  simp only [Option.bind_eq_bind, Option.bind_some, PixelKind.ofNumber?]
  rw [if_neg hallowed, if_neg (by decide)]
  rfl

theorem readHeader_of_chunkAt {file : Array UInt8} {width height : Nat}
    (h : ChunkAt file 8 headerTag (headerBytes width height))
    (hwidth : 0 < width ∧ width < 0x100000000) (hheight : 0 < height ∧ height < 0x100000000) :
    readHeader file = .ok (plainHeader width height) := by
  have hinside := h.inside
  have hbody := h.body
  have hchecked := h.checked
  rw [length_headerBytes] at hinside hbody hchecked
  unfold readHeader
  rw [h.head, length_headerBytes]
  dsimp only
  rw [if_neg (by simp), if_neg (by omega), hchecked, if_neg (by simp), hbody,
    ofBytes?_headerBytes hwidth hheight]

/-- Image data starts with the first chunk that has its name. -/
theorem readPreamble_of_chunkAt {file : Array UInt8} {position : Nat} {bytes : List UInt8}
    (h : ChunkAt file position dataTag bytes) (p : Preamble) :
    readPreamble file p position = .ok (p, position, dataTag) := by
  rw [readPreamble, h.head]
  dsimp only
  rw [if_pos (by simp [Preamble.startsData])]

/-! ## Image data -/

/-- The data of a chunk is gathered, and reading goes on behind the chunk. -/
theorem gatherData_of_chunkAt {file : Array UInt8} {position : Nat} {bytes : List UInt8}
    (h : ChunkAt file position dataTag bytes) (number : Nat) (pieces : List (Array UInt8)) :
    gatherData file dataTag number pieces position =
      gatherData file dataTag (number + 1) (bytes.toArray :: pieces)
        (position + 12 + bytes.length) := by
  have hinside := h.inside
  have hoffset : dataOffset dataTag = 0 := rfl
  have hnumber : numberAgrees file dataTag number position = true := rfl
  rw [gatherData, h.head]
  dsimp only
  rw [hoffset, Nat.add_zero, if_neg (by simp), if_neg (by omega), if_neg (by omega), hnumber,
    if_neg (by simp), dif_pos hinside, h.checked, if_pos rfl, h.body]

theorem gatherData_of_end {file : Array UInt8} {position : Nat}
    (h : ChunkAt file position endTag []) (number : Nat) (pieces : List (Array UInt8)) :
    gatherData file dataTag number pieces position = (pieces.reverse, .otherChunk) := by
  rw [gatherData, h.head]
  dsimp only
  rw [if_pos (by decide)]

theorem exists_chunkAt_dataChunks {file : Array UInt8} {position : Nat} {bytes : List UInt8}
    (h : HasBytes file position (dataChunks bytes)) :
    ∃ first, ChunkAt file position dataTag first := by
  rw [dataChunks] at h
  split at h
  · rename_i hfits
    unfold dataMax at hfits
    exact ⟨bytes, chunkAt_of_hasBytes h (by decide) (by omega)⟩
  · have hlength := List.length_take_le dataMax bytes
    unfold dataMax at hlength
    obtain ⟨hfirst, -⟩ := hasBytes_append.mp h
    exact ⟨_, chunkAt_of_hasBytes hfirst (by decide) (by unfold dataMax; omega)⟩

/-- From its chunks, all image data is gathered up to the end chunk. -/
theorem gatherData_dataChunks {file : Array UInt8} (bytes : List UInt8) {position : Nat}
    (h : HasBytes file position (dataChunks bytes ++ endChunk)) (number : Nat)
    (pieces : List (Array UInt8)) :
    ∃ gathered, gatherData file dataTag number pieces position =
        (pieces.reverse ++ gathered, .otherChunk) ∧
      gathered.flatMap Array.toList = bytes := by
  induction bytes using dataChunks.induct generalizing position number pieces with
  | case1 bytes hfits =>
    rw [dataChunks, dif_pos hfits] at h
    obtain ⟨hdata, hend⟩ := hasBytes_append.mp h
    rw [length_chunk, ← Nat.add_assoc] at hend
    have hlast := chunkAt_of_hasBytes hend (by decide) (by decide)
    refine ⟨[bytes.toArray], ?_, by simp⟩
    unfold dataMax at hfits
    rw [gatherData_of_chunkAt (chunkAt_of_hasBytes hdata (by decide) (by omega)),
      gatherData_of_end hlast, List.reverse_cons]
  | case2 bytes hlong ih =>
    have hlength : (bytes.take dataMax).length = dataMax := by
      rw [List.length_take]
      omega
    rw [dataChunks, dif_neg hlong, List.append_assoc] at h
    obtain ⟨hdata, hmore⟩ := hasBytes_append.mp h
    rw [length_chunk, ← Nat.add_assoc] at hmore
    have hchunk := chunkAt_of_hasBytes hdata (by decide) (by rw [hlength]; decide)
    obtain ⟨gathered, hgathered, hbytes⟩ :=
      ih hmore (number + 1) ((bytes.take dataMax).toArray :: pieces)
    refine ⟨(bytes.take dataMax).toArray :: gathered, ?_, ?_⟩
    · rw [gatherData_of_chunkAt hchunk, hgathered, List.reverse_cons, List.append_assoc,
        List.singleton_append]
    · rw [List.flatMap_cons, hbytes, List.take_append_drop]

end TwinScreen.Png
