import TwinScreen.Frame
import TwinScreen.Proofs.Pixmap.Rows

/-!
# What a frame holds

A frame whose rows lie in its bytes can be read row by row. Its rows without what lies between them
make a pixmap, the picture of the frame, if such a pixmap can exist at all.
-/
namespace TwinScreen

namespace Frame

/-! ## Rows of a frame -/

def pixels (f : Frame) (y : Nat) : List UInt8 :=
  (f.bytes.extract (y * f.pitch) (y * f.pitch + f.width * pixelBytes)).toList

/-- The rows lie in the bytes, and these can be addressed. -/
structure Readable (f : Frame) : Prop where
  size_le : f.bytes.size ≤ Size.bytesMax
  row_le : ∀ y < f.height, y * f.pitch + f.width * pixelBytes ≤ f.bytes.size

/-- The length of a row is a size, and a buffer can hold the pixels of all rows. -/
structure Storable (f : Frame) : Prop where
  stride_lt : f.width * pixelBytes < Size.bound
  size_le : pixelBytes * (f.width * f.height) ≤ Size.bytesMax

def picture (f : Frame) : Pixmap :=
  ⟨f.width, f.height, ((List.range f.height).flatMap f.pixels).toArray⟩

variable {f : Frame}

theorem Readable.length_pixels (h : f.Readable) {y : Nat} (hy : y < f.height) :
    (f.pixels y).length = f.width * pixelBytes := by
  unfold pixels
  rw [Array.length_toList, Array.size_extract, Nat.min_eq_left (h.row_le y hy),
    Nat.add_sub_cancel_left]

/-- The rows of a readable frame are read without a fault. -/
theorem Readable.row_eq (h : f.Readable) {y : Nat} (hy : y < f.height) :
    f.row y = .ok (f.pixels y) := by
  have hroom := h.row_le y hy
  have hsize := h.size_le
  have hend : y * f.pitch + f.width * pixelBytes < Size.bound := by
    unfold Size.bytesMax at hsize
    unfold Size.bound
    omega
  unfold row sliceBytes pixels
  rw [Size.mul_of_lt (by omega), Size.mul_of_lt (by omega)]
  simp only [except_ok_bind]
  rw [Size.add_of_lt hend, except_ok_bind, if_pos hroom]
  rfl

theorem picture_valid (hreadable : f.Readable) (hstorable : f.Storable) : f.picture.Valid := by
  have hsize : f.picture.bytes.size = f.width * f.height * pixelBytes := by
    unfold picture
    rw [List.size_toArray, length_flatMap_range fun y hy => hreadable.length_pixels hy,
      Nat.mul_comm, Nat.mul_right_comm]
  refine ⟨hsize, ?_⟩
  rw [hsize, Nat.mul_comm]
  exact hstorable.size_le

/-- The picture has the rows of the frame. -/
theorem row_picture (hreadable : f.Readable) (hstorable : f.Storable) {y : Nat}
    (hy : y < f.height) : f.picture.row y = .ok (f.pixels y) := by
  have hvalid := picture_valid hreadable hstorable
  have hrows : (List.range f.height).flatMap f.picture.rowBytes =
      (List.range f.height).flatMap f.pixels := (Pixmap.toList_bytes hvalid.size_eq).symm
  have hsame := flatMap_range_inj (fun y hy => (hvalid.hasRow hy).length_rowBytes)
    (fun y hy => hreadable.length_pixels hy) hrows y hy
  exact (Pixmap.row_eq_ok ..).mpr ⟨hvalid.hasRow hy, hsame⟩

/-! ## The frame of a pixmap -/

/-- A pixmap is a frame if the length of its rows is a size. -/
theorem ofPixmap_eq_ok (p : Pixmap) (f : Frame) :
    ofPixmap p = .ok f ↔ p.width * pixelBytes < Size.bound ∧
      f = ⟨p.bytes, p.width, p.height, p.width * pixelBytes⟩ := by
  simp only [ofPixmap, Pixmap.stride, except_bind_eq_ok, Size.mul_eq_ok]
  constructor
  · rintro ⟨_, ⟨hlt, rfl⟩, hf⟩
    exact ⟨hlt, (Except.ok.inj hf).symm⟩
  · rintro ⟨hlt, rfl⟩
    exact ⟨_, ⟨hlt, rfl⟩, rfl⟩

theorem readable_of_ofPixmap {p : Pixmap} (hp : p.Valid) (h : ofPixmap p = .ok f) :
    f.Readable := by
  obtain ⟨_, rfl⟩ := (ofPixmap_eq_ok p f).mp h
  refine ⟨hp.size_le, fun y hy => ?_⟩
  have hend := (hp.hasRow hy).1
  rwa [Pixmap.position_zero_succ] at hend

theorem storable_of_ofPixmap {p : Pixmap} (hp : p.Valid) (h : ofPixmap p = .ok f) :
    f.Storable := by
  obtain ⟨hlt, rfl⟩ := (ofPixmap_eq_ok p f).mp h
  refine ⟨hlt, ?_⟩
  rw [Nat.mul_comm, ← hp.size_eq]
  exact hp.size_le

/-- The frame of a pixmap shows the pixmap. -/
theorem picture_of_ofPixmap {p : Pixmap} (hp : p.Valid) (h : ofPixmap p = .ok f) :
    f.picture = p := by
  obtain ⟨_, rfl⟩ := (ofPixmap_eq_ok p f).mp h
  have hsame : pixels ⟨p.bytes, p.width, p.height, p.width * pixelBytes⟩ = p.rowBytes := by
    funext y
    simp [pixels, Pixmap.rowBytes, Pixmap.position, Nat.succ_mul]
  unfold picture
  rw [hsame, ← Pixmap.toList_bytes hp.size_eq]

end Frame

end TwinScreen
