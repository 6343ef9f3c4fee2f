import Mathlib.Data.List.Basic
import TwinScreen.Proofs.Png.Rows

/-!
# Samples that are read

Whatever file is read as an image, with or without interlacing, palette and transparency, its pixels
have as many samples each as its channels are, and its dimensions leave room for a pixmap
(`readSamples_complete`). The start of the file says how long rows are (`Header.Sound`), all rows
that are read have this length (`HasRows`), and each pixel lies in one of them.
-/
namespace TwinScreen.Png

open BigEndian

/-! ## The start of a file -/

/-- A header with numbers of a depth that its kind of pixels may have. -/
structure Header.Sound (h : Header) : Prop where
  depth_allowed : h.kind.allows h.depth = true
  height_lt : h.height < 0x100000000

/-- Only pixels without an alpha of their own can be noted as transparent. -/
structure Preamble.Sound (p : Preamble) : Prop where
  header : p.header.Sound
  kind_of_transparency : p.transparency.isSome →
    p.header.kind = .gray ∨ p.header.kind = .rgb ∨ p.header.kind = .indexed

theorem long?_lt {data : Array UInt8} {i n : Nat} (h : long? data i = some n) :
    n < 0x100000000 := by
  have hbyte {j b : Nat} (hb : byte? data j = some b) : b < 256 := by
    obtain ⟨u, -, rfl⟩ := Option.map_eq_some_iff.mp hb
    exact u.toNat_lt
  have hword {j w : Nat} (hw : word? data j = some w) : w < 65536 := by
    simp only [word?, Option.bind_eq_bind, Option.bind_eq_some_iff, Option.pure_def,
      Option.some.injEq] at hw
    obtain ⟨high, hhigh, low, hlow, rfl⟩ := hw
    have hh := hbyte hhigh
    have hl := hbyte hlow
    omega
  simp only [long?, Option.bind_eq_bind, Option.bind_eq_some_iff, Option.pure_def,
    Option.some.injEq] at h
  obtain ⟨high, hhigh, low, hlow, rfl⟩ := h
  have hh := hword hhigh
  have hl := hword hlow
  omega

/-- A header is read only if its kind of pixels may have its depth. -/
theorem Header.sound_of_ofBytes? {data : Array UInt8} {h : Header}
    (hread : Header.ofBytes? data = some h) : h.Sound := by
  simp only [Header.ofBytes?, Option.bind_eq_bind, Option.bind_eq_some_iff] at hread
  obtain ⟨width, -, height, hheight, depth, -, number, -, kind, -, _, -, _, -, _, -, hread⟩ := hread
  split at hread
  · cases hread
  · rename_i hchecked
    split at hread
    · cases hread
    · obtain rfl := Option.some.inj hread
      have hallowed : kind.allows depth = true := by simp_all
      exact ⟨hallowed, long?_lt hheight⟩

/-- The header of a file is sound, if it can be read at all. -/
theorem readHeader_sound {file : Array UInt8} {h : Header} (hread : readHeader file = .ok h) :
    h.Sound := by
  unfold readHeader at hread
  split at hread
  · cases hread
  · split at hread
    · cases hread
    · split at hread
      · cases hread
      · split at hread
        · cases hread
        · split at hread
          · rename_i header hbytes
            obtain rfl := Except.ok.inj hread
            exact Header.sound_of_ofBytes? hbytes
          · cases hread

theorem Preamble.Sound.start {h : Header} (hh : h.Sound) : (Preamble.start h).Sound :=
  ⟨hh, fun hnone => by cases hnone⟩

theorem Preamble.Sound.withTransparency {p : Preamble} (hp : p.Sound) (data : List UInt8) :
    (p.withTransparency data).Sound := by
  unfold Preamble.withTransparency
  split
  · exact hp
  · split
    · rename_i hkind
      exact ⟨hp.header, fun _ => .inl hkind⟩
    · rename_i hkind
      exact ⟨hp.header, fun _ => .inr (.inl hkind)⟩
    · rename_i hkind
      split
      · exact ⟨hp.header, fun _ => .inr (.inr hkind)⟩
      · exact hp
    · exact hp

theorem Preamble.Sound.withFrame {p p' : Preamble} (hp : p.Sound) {data : Array UInt8}
    (h : p.withFrame data = .ok p') : p'.Sound := by
  unfold Preamble.withFrame at h
  split at h
  · obtain rfl := Except.ok.inj h
    exact ⟨hp.header, hp.kind_of_transparency⟩
  · cases h

theorem Preamble.Sound.withColors {p p' : Preamble} (hp : p.Sound) {data : Array UInt8}
    (h : p.withColors data = .ok p') : p'.Sound := by
  unfold Preamble.withColors at h
  split at h
  · obtain rfl := Except.ok.inj h
    exact hp
  · split at h
    · obtain rfl := Except.ok.inj h
      exact ⟨hp.header, hp.kind_of_transparency⟩
    · cases h

theorem Preamble.Sound.withChunk {p p' : Preamble} (hp : p.Sound) {tag : Nat} {data : Array UInt8}
    (h : p.withChunk tag data = .ok p') : p'.Sound := by
  unfold Preamble.withChunk at h
  split at h
  · split at h
    · cases h
    · obtain rfl := Except.ok.inj h
      exact ⟨hp.header, hp.kind_of_transparency⟩
  · split at h
    · obtain rfl := Except.ok.inj h
      exact hp.withTransparency data.toList
    · split at h
      · exact hp.withFrame h
      · split at h
        · exact hp.withColors h
        · split at h
          · obtain rfl := Except.ok.inj h
            exact hp
          · cases h

/-- Each chunk in front of the image data keeps the preamble sound. -/
theorem readPreamble_sound {file : Array UInt8} {p p' : Preamble} {position position' tag : Nat}
    (hp : p.Sound) (h : readPreamble file p position = .ok (p', position', tag)) : p'.Sound := by
  fun_induction readPreamble file p position with
  | case1 | case3 | case4 | case6 | case9 | case10 => cases h
  | case2 =>
    obtain ⟨rfl, -⟩ := Prod.mk.inj (Except.ok.inj h)
    exact hp
  | case5 =>
    rename_i hchunk ih
    exact ih (hp.withChunk hchunk) h
  | case7 | case8 =>
    rename_i ih
    exact ih hp h

/-- What stands in front of the image data is sound, and no row of it is too large. -/
theorem readStart_sound {file : Array UInt8} {p : Preamble} {position tag : Nat}
    (h : readStart file = .ok (p, position, tag)) : p.Sound ∧ rowTooLarge p = false := by
  unfold readStart at h
  obtain ⟨_, -, h⟩ := (except_bind_eq_ok ..).mp h
  obtain ⟨header, hheader, h⟩ := (except_bind_eq_ok ..).mp h
  split at h
  · cases h
  · obtain ⟨⟨p', position', tag'⟩, hread, h⟩ := (except_bind_eq_ok ..).mp h
    dsimp only at h
    cases hrow : rowTooLarge p' with
    | true =>
      rw [hrow, if_pos rfl] at h
      cases h
    | false =>
      rw [hrow, if_neg (by decide)] at h
      obtain ⟨rfl, -⟩ := Prod.mk.inj (Except.ok.inj h)
      exact ⟨readPreamble_sound (.start (readHeader_sound hheader)) hread, hrow⟩

/-! ## Rows -/

/-- Steps that add a byte each add as many as there are steps. -/
theorem size_foldl {add : Array UInt8 → UInt8 → Array UInt8}
    (h : ∀ row b, (add row b).size = row.size + 1) (l : List UInt8) (row : Array UInt8) :
    (l.foldl add row).size = row.size + l.length := by
  induction l generalizing row with
  | nil => rfl
  | cons b more ih =>
    rw [List.foldl_cons, ih, h, List.length_cons]
    omega

theorem size_unpredict (method pixelBytes : Nat) (previous differences : Array UInt8) :
    (unpredict method pixelBytes previous differences).size = differences.size := by
  unfold unpredict
  split
  · rfl
  · rw [← Array.foldl_toList, size_foldl (fun row b => Array.size_push ..), Array.length_toList]
    exact Nat.zero_add _

/-- The rows of the passes are as many and as long as the header says; a pass without columns has
no rows. -/
structure HasRows (h : Header) (rows : List (Pass × Array (Array UInt8))) : Prop where
  count : ∀ entry ∈ rows, entry.1.columns h.width ≠ 0 → entry.2.size = entry.1.rows h.height
  length : ∀ entry ∈ rows, ∀ row ∈ entry.2, row.size = h.rowBytes (entry.1.columns h.width)

namespace HasRows

variable {h : Header} {rows : List (Pass × Array (Array UInt8))}

theorem nil (h : Header) : HasRows h [] := ⟨by simp, by simp⟩

theorem cons (hrows : HasRows h rows) {pass : Pass} {passRows : Array (Array UInt8)}
    (hcount : pass.columns h.width ≠ 0 → passRows.size = pass.rows h.height)
    (hlength : ∀ row ∈ passRows, row.size = h.rowBytes (pass.columns h.width)) :
    HasRows h ((pass, passRows) :: rows) where
  count := List.forall_mem_cons.mpr ⟨hcount, hrows.count⟩
  length := List.forall_mem_cons.mpr ⟨hlength, hrows.length⟩

theorem reverse (hrows : HasRows h rows) : HasRows h rows.reverse where
  count entry hentry := hrows.count entry (List.mem_reverse.mp hentry)
  length entry hentry := hrows.length entry (List.mem_reverse.mp hentry)

end HasRows

/-- The bytes of a row are there before it is read, so all rows have the same length. -/
theorem readRows_complete {data : Array UInt8} {pixelBytes rowBytes position : Nat}
    {previous : Array UInt8} {done : List (Array UInt8)} {count : Nat}
    {rows : Array (Array UInt8)}
    (h : readRows data pixelBytes rowBytes position previous done count = .complete rows)
    (hdone : ∀ row ∈ done, row.size = rowBytes) :
    rows.size = done.length + count ∧ ∀ row ∈ rows, row.size = rowBytes := by
  induction count generalizing position previous done with
  | zero =>
    rw [readRows] at h
    obtain rfl := RowsRead.complete.inj h
    simpa using hdone
  | succ count ih =>
    rw [readRows] at h
    dsimp only at h
    split at h
    · cases h
    · rename_i hroom
      split at h
      · cases h
      · have hrow := size_unpredict (data.getD position 0).toNat pixelBytes previous
          (data.extract (position + 1) (position + 1 + rowBytes))
        rw [Array.size_extract] at hrow
        obtain ⟨hsize, hlength⟩ := ih h (List.forall_mem_cons.mpr ⟨by omega, hdone⟩)
        rw [List.length_cons] at hsize
        exact ⟨by omega, hlength⟩

/-- Passes are read in their order, behind those that are done. -/
theorem readPasses_complete {data : Array UInt8} {h : Header} {position : Nat}
    {done rows : List (Pass × Array (Array UInt8))} {passes : List Pass}
    (hread : readPasses data h position done passes = .complete rows) (hdone : HasRows h done) :
    rows.map Prod.fst = (done.map Prod.fst).reverse ++ passes ∧ HasRows h rows := by
  induction passes generalizing position done with
  | nil =>
    rw [readPasses] at hread
    obtain rfl := RowsRead.complete.inj hread
    exact ⟨by simp, hdone.reverse⟩
  | cons pass more ih =>
    rw [readPasses] at hread
    split at hread
    · rename_i passRows hrows
      obtain ⟨hsize, hlength⟩ := readRows_complete hrows (by simp)
      have hcount (hcolumns : pass.columns h.width ≠ 0) : passRows.size = pass.rows h.height := by
        rw [hsize, if_neg hcolumns]
        exact Nat.zero_add _
      obtain ⟨hpasses, hall⟩ := ih hread (hdone.cons hcount hlength)
      exact ⟨by simpa using hpasses, hall⟩
    · cases hread
    · cases hread

/-- Rows are given out only when all of them have been read. -/
theorem rowsOf_complete {p : Preamble} {pieces : List (Array UInt8)} {dataEnd : DataEnd}
    {rows : List (Pass × Array (Array UInt8))} (h : rowsOf p pieces dataEnd = .ok rows) :
    rows.map Prod.fst = p.header.passes ∧ HasRows p.header rows := by
  unfold rowsOf at h
  dsimp only at h
  split at h
  · obtain ⟨_, -, h⟩ := (except_bind_eq_ok ..).mp h
    cases h
  · obtain ⟨_, -, h⟩ := (except_bind_eq_ok ..).mp h
    split at h
    · cases h
    · cases h
    · rename_i passRows hread
      split at h
      · cases h
      · split at h
        · obtain rfl := Except.ok.inj h
          exact readPasses_complete hread (.nil _)
        · cases h

/-! ## Passes -/

namespace Pass

/-- Of the columns or rows that a pass takes, there are as many as fit in. -/
theorem index_lt {first step size i : Nat} (hstep : 0 < step) (hfirst : first ≤ i)
    (hi : i < size) : (i - first) / step < (size + step - 1 - first) / step := by
  have hnext : (i - first) / step + 1 = (i - first + step) / step :=
    (Nat.add_div_right (i - first) hstep).symm
  have hle : (i - first + step) / step ≤ (size + step - 1 - first) / step :=
    Nat.div_le_div_right (by omega)
  omega

/-- Every pixel of an interlaced image is in one of the seven passes: in the last one in odd rows,
and in the ones before it by how often the column and the row can be halved. -/
theorem exists_interlaced (x y : Nat) : ∃ p ∈ interlaced, p.contains x y = true := by
  simp only [contains_iff]
  by_cases hrow : y % 2 = 1
  · exact ⟨⟨0, 1, 1, 2⟩, by decide, by dsimp only; omega⟩
  by_cases hcolumn : x % 2 = 1
  · exact ⟨⟨1, 0, 2, 2⟩, by decide, by dsimp only; omega⟩
  by_cases hrow : y % 4 = 2
  · exact ⟨⟨0, 2, 2, 4⟩, by decide, by dsimp only; omega⟩
  by_cases hcolumn : x % 4 = 2
  · exact ⟨⟨2, 0, 4, 4⟩, by decide, by dsimp only; omega⟩
  by_cases hrow : y % 8 = 4
  · exact ⟨⟨0, 4, 4, 8⟩, by decide, by dsimp only; omega⟩
  by_cases hcolumn : x % 8 = 4
  · exact ⟨⟨4, 0, 8, 8⟩, by decide, by dsimp only; omega⟩
  · exact ⟨⟨0, 0, 8, 8⟩, by decide, by dsimp only; omega⟩

end Pass

/-- Every pixel is in one of the passes. -/
theorem Header.exists_pass (h : Header) (x y : Nat) :
    ∃ p ∈ h.passes, p.contains x y = true := by
  unfold Header.passes
  split
  · exact Pass.exists_interlaced x y
  · exact ⟨Pass.whole, List.mem_singleton_self _, Pass.contains_whole x y⟩

theorem Header.step_pos {h : Header} {p : Pass} (hp : p ∈ h.passes) :
    0 < p.columnStep ∧ 0 < p.rowStep := by
  have hinterlaced : ∀ q ∈ Pass.interlaced, 0 < q.columnStep ∧ 0 < q.rowStep := by decide
  unfold Header.passes at hp
  split at hp
  · exact hinterlaced p hp
  · obtain rfl := List.mem_singleton.mp hp
    decide

/-! ## Pixels -/

/-- Depths of whole bytes, and smaller ones where one number is stored for a pixel. -/
theorem Header.Sound.depth_cases {h : Header} (hh : h.Sound) :
    h.depth = 8 ∨ h.depth = 16 ∨
      (0 < h.depth ∧ h.depth < 8 ∧ (h.kind = .gray ∨ h.kind = .indexed)) := by
  have hallowed := hh.depth_allowed
  unfold PixelKind.allows at hallowed
  split at hallowed
  all_goals
    rename_i hkind
    simp only [List.contains_eq_mem, List.mem_cons, List.not_mem_nil, or_false,
      decide_eq_true_eq] at hallowed
    simp only [hkind, reduceCtorEq, or_true, or_false, and_true, and_false]
    omega

/-- Rows of whole bytes take those of their pixels. -/
theorem rowBytes_of_dvd {h : Header} (hdvd : 8 ∣ h.pixelBits) (width : Nat) :
    h.rowBytes width = width * h.pixelBytes := by
  obtain ⟨n, hn⟩ := hdvd
  unfold Header.rowBytes Header.pixelBytes
  have hbytes : (8 * n + 7) / 8 = n := by omega
  rw [hn, hbytes, Nat.mul_left_comm]
  omega

theorem count_of_small {h : Header} (hkind : h.kind = .gray ∨ h.kind = .indexed) :
    h.kind.count = 1 := by
  rcases hkind with hkind | hkind <;> rw [hkind] <;> rfl

theorem pixelBytes_of_small {h : Header} (hpos : 0 < h.depth) (hsmall : h.depth < 8)
    (hkind : h.kind = .gray ∨ h.kind = .indexed) : h.pixelBytes = 1 := by
  unfold Header.pixelBytes Header.pixelBits
  rw [count_of_small hkind]
  omega

/-- The stored pixel has all of its bytes if its row reaches over its column. -/
theorem length_storedPixel {h : Header} (hh : h.Sound) {row : Array UInt8} {column columns : Nat}
    (hcolumn : column < columns) (hrow : row.size = h.rowBytes columns) :
    (storedPixel h row column).length = h.pixelBytes := by
  have hwhole (hdvd : 8 ∣ h.depth) (hdepth : ¬ h.depth < 8) :
      (storedPixel h row column).length = h.pixelBytes := by
    have hinside : (column + 1) * h.pixelBytes ≤ columns * h.pixelBytes :=
      Nat.mul_le_mul_right _ hcolumn
    rw [← rowBytes_of_dvd (Nat.dvd_mul_left_of_dvd hdvd _) columns, ← hrow] at hinside
    unfold storedPixel
    rw [if_neg hdepth, Array.length_toList, Array.size_extract, Nat.min_eq_left hinside,
      Nat.succ_mul, Nat.add_sub_cancel_left]
  rcases hh.depth_cases with hdepth | hdepth | ⟨hpos, hsmall, hkind⟩
  · exact hwhole (by omega) (by omega)
  · exact hwhole (by omega) (by omega)
  · unfold storedPixel
    rw [if_pos hsmall, pixelBytes_of_small hpos hsmall hkind]
    rfl

/-- Every pixel of the image is in a row of a pass, whichever way its rows are stored. -/
theorem HasRows.length_pixelAt {h : Header} {rows : List (Pass × Array (Array UInt8))}
    (hrows : HasRows h rows) (hh : h.Sound) (hpasses : rows.map Prod.fst = h.passes) {x y : Nat}
    (hx : x < h.width) (hy : y < h.height) : (pixelAt h rows x y).length = h.pixelBytes := by
  unfold pixelAt
  split
  · rename_i pass passRows hfind
    have hmem := List.mem_of_find?_eq_some hfind
    have hcontains := List.find?_some hfind
    obtain ⟨⟨hcolumn, -⟩, hrow, -⟩ := Pass.contains_iff.mp hcontains
    obtain ⟨hcolumnStep, hrowStep⟩ :=
      Header.step_pos (hpasses ▸ List.mem_map_of_mem (f := Prod.fst) hmem)
    have hcolumns := Pass.index_lt hcolumnStep hcolumn hx
    have hcount := hrows.count _ hmem (Nat.ne_of_gt (Nat.zero_lt_of_lt hcolumns))
    have hindex : (y - pass.firstRow) / pass.rowStep < passRows.size :=
      hcount ▸ Pass.index_lt hrowStep hrow hy
    have hlength := hrows.length _ hmem _ (Array.getElem_mem hindex)
    rw [← Array.getElem_eq_getD (h := hindex) #[]]
    exact length_storedPixel hh hcolumns hlength
  · rename_i hnone
    obtain ⟨pass, hpass, hcontains⟩ := h.exists_pass x y
    rw [← hpasses] at hpass
    obtain ⟨entry, hentry, rfl⟩ := List.mem_map.mp hpass
    exact absurd hcontains (List.find?_eq_none.mp hnone entry hentry)

/-! ## Samples -/

theorem length_upperBytes (pixel : List UInt8) : (upperBytes pixel).length = pixel.length / 2 := by
  fun_induction upperBytes pixel with
  | case1 high low more ih =>
    rw [List.length_cons, ih, List.length_cons, List.length_cons]
    omega
  | case2 pixel hshort =>
    match pixel, hshort with
    | [], _ => rfl
    | [_], _ => exact (Nat.div_eq_of_lt Nat.one_lt_two).symm
    | high :: low :: more, hshort => exact absurd rfl (hshort high low more)

/-- Without a palette, a pixel has as many samples as there are numbers stored for it: stretched
ones, upper bytes, or the bytes themselves. -/
theorem length_numbers {h : Header} (hh : h.Sound) {pixel : List UInt8}
    (hpixel : pixel.length = h.pixelBytes) :
    (if h.depth < 8 then pixel.map (stretch h.depth)
      else if h.depth = 16 then upperBytes pixel else pixel).length = h.kind.count := by
  rcases hh.depth_cases with hdepth | hdepth | ⟨hpos, hsmall, hkind⟩
  · rw [if_neg (by omega), if_neg (by omega), hpixel, Header.pixelBytes, Header.pixelBits, hdepth]
    omega
  · rw [if_neg (by omega), if_pos hdepth, length_upperBytes, hpixel, Header.pixelBytes,
      Header.pixelBits, hdepth]
    omega
  · rw [if_pos hsmall, List.length_map, hpixel, pixelBytes_of_small hpos hsmall hkind,
      count_of_small hkind]

/-- A palette entry has three colors, also one that is missing. -/
theorem length_entry (palette : Array UInt8) (entry : Nat) :
    (if entry < palette.size / 3 then (palette.extract (3 * entry) (3 * entry + 3)).toList
      else [0, 0, 0]).length = 3 := by
  split
  · rw [Array.length_toList, Array.size_extract]
    omega
  · rfl

/-- Every pixel has the samples of its channels. An alpha is added just where pixels have none of
their own, because only there transparent ones can be noted. -/
theorem length_pixelSamples {p : Preamble} (hp : p.Sound) {pixel : List UInt8}
    (hpixel : pixel.length = p.header.pixelBytes) :
    (pixelSamples p pixel).length = (p.header.channels p.transparency.isSome).count := by
  have hnumbers := length_numbers hp.header hpixel
  unfold pixelSamples Header.channels
  cases htransparency : p.transparency with
  | none =>
    cases hkind : p.header.kind
    case indexed => exact length_entry _ _
    all_goals
      dsimp only
      rw [hnumbers, hkind]
      rfl
  | some noted =>
    rcases hp.kind_of_transparency (by rw [htransparency]; rfl) with hkind | hkind | hkind
    · rw [hkind]
      dsimp only
      rw [List.length_append, hnumbers, hkind]
      rfl
    · rw [hkind]
      dsimp only
      rw [List.length_append, hnumbers, hkind]
      rfl
    · rw [hkind]
      dsimp only
      rw [List.length_append, length_entry]
      rfl

/-- The limits of reading leave room for four bytes of every pixel. -/
theorem addressable_of_row {p : Preamble} (hp : p.Sound) (hrow : rowTooLarge p = false) :
    p.header.width * p.header.height * pixelBytes ≤ Size.bytesMax := by
  have hlimit : p.header.width * (p.header.channels p.transparency.isSome).count ≤ 0x4000000 :=
    Nat.not_lt.mp (of_decide_eq_false hrow)
  have hwidth : p.header.width ≤ 0x4000000 :=
    Nat.le_trans (Nat.le_mul_of_pos_right _ (Channels.count_pos _)) hlimit
  have hpixels : p.header.width * p.header.height ≤ 0x4000000 * 0x100000000 :=
    Nat.mul_le_mul hwidth (Nat.le_of_lt hp.header.height_lt)
  unfold pixelBytes Size.bytesMax
  omega

/-- Whatever a file that can be read contains, its samples are complete. -/
theorem readSamples_complete {file : Array UInt8} {s : Samples} (h : readSamples file = .ok s) :
    s.Complete := by
  unfold readSamples at h
  split at h
  · cases h
  · rename_i p position tag hstart
    dsimp only at h
    obtain ⟨rows, hrows, rfl⟩ := except_map_eq_ok.mp h
    obtain ⟨hp, hrow⟩ := readStart_sound hstart
    obtain ⟨hpasses, hrows⟩ := rowsOf_complete hrows
    refine ⟨?_, addressable_of_row hp hrow⟩
    rw [← Array.length_toList, toList_samplesOf, length_flatMap_range fun y hy =>
      length_flatMap_range fun x hx =>
        length_pixelSamples hp (hrows.length_pixelAt hp.header hpasses hx hy)]
    dsimp only [samplesOf]
    rw [Nat.mul_left_comm, Nat.mul_assoc]

end TwinScreen.Png
