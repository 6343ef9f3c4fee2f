import Mathlib.Data.List.Basic
import TwinScreen.Pixmap
import TwinScreen.Proofs.Bounds
import TwinScreen.Proofs.Step

/-!
# Pixels of a pixmap

`Pixmap.pixel?` is what a pixmap shows at a position, without regard to the sizes that a program has
to compute on the way. Reading a row or a pixel gives the same colors wherever the row lies in the
bytes (`HasRow`), as every row of a valid pixmap does. A valid pixmap is told by its dimensions and
what it shows (`Valid.ext`).
-/
namespace TwinScreen

/-- The color whose channels start at a position of the data, if all four lie in it. -/
def colorAt? (data : Array UInt8) (start : Nat) : Option Color := do
  return ⟨← data[start]?, ← data[start + 1]?, ← data[start + 2]?, ← data[start + 3]?⟩

theorem colorAt?_congr {data data' : Array UInt8} {start start' : Nat}
    (h : ∀ i < pixelBytes, data[start + i]? = data'[start' + i]?) :
    colorAt? data start = colorAt? data' start' := by
  unfold colorAt?
  have h0 := h 0 (by decide)
  rw [Nat.add_zero, Nat.add_zero] at h0
  rw [h0, h 1 (by decide), h 2 (by decide), h 3 (by decide)]

/-- A color stands where its four bytes do. -/
theorem colorAt?_eq_some_iff (data : Array UInt8) (start : Nat) (c : Color) :
    colorAt? data start = some c ↔ ∀ i < pixelBytes, data[start + i]? = some (c.byte i) := by
  unfold colorAt?
  constructor
  · intro h
    simp only [Option.bind_eq_bind, Option.bind_eq_some_iff, Option.pure_def] at h
    obtain ⟨red, hred, green, hgreen, blue, hblue, alpha, halpha, hc⟩ := h
    obtain rfl := Option.some.inj hc
    intro i hi
    match i, hi with
    | 0, _ => exact hred
    | 1, _ => exact hgreen
    | 2, _ => exact hblue
    | 3, _ => exact halpha
  · intro h
    have hred := h 0 (by decide)
    rw [Nat.add_zero] at hred
    rw [hred, h 1 (by decide), h 2 (by decide), h 3 (by decide)]
    rfl

theorem exists_colorAt? {data : Array UInt8} {start : Nat} (h : start + pixelBytes ≤ data.size) :
    ∃ c, colorAt? data start = some c := by
  unfold pixelBytes at h
  refine ⟨⟨data[start], data[start + 1], data[start + 2], data[start + 3]⟩, ?_⟩
  unfold colorAt?
  rw [Array.getElem?_eq_getElem (by omega), Array.getElem?_eq_getElem (by omega),
    Array.getElem?_eq_getElem (by omega), Array.getElem?_eq_getElem (by omega)]
  rfl

/-! ## Bytes written -/

theorem writeBytes_frame (data : Array UInt8) (start i : Nat) (values : List UInt8)
    (houtside : i < start ∨ start + values.length ≤ i) :
    (writeBytes data start values)[i]? = data[i]? := by
  induction values generalizing data start with
  | nil => rfl
  | cons b rest ih =>
    rw [List.length_cons] at houtside
    rw [writeBytes, ih _ _ (by omega), Array.getElem?_setIfInBounds_ne (by omega)]

theorem writeBytes_lane (data : Array UInt8) (start i : Nat) (values : List UInt8)
    (hroom : start + values.length ≤ data.size) (hi : i < values.length) :
    (writeBytes data start values)[start + i]? = values[i]? := by
  induction values generalizing data start i with
  | nil => simp at hi
  | cons b rest ih =>
    rw [List.length_cons] at hroom hi
    rw [writeBytes]
    cases i with
    | zero =>
      rw [writeBytes_frame _ _ _ _ (by omega), Nat.add_zero,
        Array.getElem?_setIfInBounds_self_of_lt (by omega)]
      rfl
    | succ i =>
      rw [Nat.add_comm i 1, ← Nat.add_assoc, ih _ _ _ (by simp; omega) (by omega),
        Nat.add_comm 1 i, List.getElem?_cons_succ]

namespace Pixmap

/-! ## Positions -/

def position (p : Pixmap) (x y : Nat) : Nat := y * (p.width * pixelBytes) + x * pixelBytes

/-- The color that a pixmap shows at a position, if the position is inside. -/
def pixel? (p : Pixmap) (x y : Nat) : Option Color :=
  if x < p.width ∧ y < p.height then colorAt? p.bytes (p.position x y) else none

/-- A row lies in the bytes, and its end is a size. -/
def HasRow (p : Pixmap) (y : Nat) : Prop :=
  p.position 0 (y + 1) ≤ p.bytes.size ∧ p.position 0 (y + 1) < Size.bound

theorem position_add (p : Pixmap) (x d y : Nat) :
    p.position (x + d) y = p.position x y + d * pixelBytes := by
  unfold position
  rw [Nat.add_mul, Nat.add_assoc]

/-- A pixel ends where the next one starts, which is in the same row or starts the one below. -/
theorem position_le_position (p : Pixmap) (x y y' : Nat) (hx : x ≤ p.width) (hy : y < y') :
    p.position x y ≤ p.position 0 y' := by
  unfold position
  have hrows : (y + 1) * (p.width * pixelBytes) ≤ y' * (p.width * pixelBytes) :=
    Nat.mul_le_mul_right _ hy
  have hcolumns : x * pixelBytes ≤ p.width * pixelBytes := Nat.mul_le_mul_right _ hx
  rw [Nat.succ_mul] at hrows
  omega

theorem Valid.size_lt {p : Pixmap} (h : p.Valid) : p.bytes.size < Size.bound := by
  have hsize := h.size_le
  unfold Size.bytesMax at hsize
  unfold Size.bound
  omega

theorem hasRow_of_size {p : Pixmap} (hsize : p.bytes.size = p.width * p.height * pixelBytes)
    (hlt : p.bytes.size < Size.bound) {y : Nat} (hy : y < p.height) : p.HasRow y := by
  have hle : p.position 0 (y + 1) ≤ p.bytes.size := by
    rw [hsize, Nat.mul_right_comm, Nat.mul_comm]
    unfold position
    rw [Nat.zero_mul, Nat.add_zero]
    exact Nat.mul_le_mul_right _ hy
  exact ⟨hle, Nat.lt_of_le_of_lt hle hlt⟩

theorem Valid.hasRow {p : Pixmap} (h : p.Valid) {y : Nat} (hy : y < p.height) : p.HasRow y :=
  hasRow_of_size h.size_eq h.size_lt hy

/-! ## Reading -/

theorem position_zero_succ (p : Pixmap) (y : Nat) :
    p.position 0 (y + 1) = y * (p.width * pixelBytes) + p.width * pixelBytes := by
  unfold position
  rw [Nat.succ_mul, Nat.zero_mul, Nat.add_zero]

theorem HasRow.stride_eq {p : Pixmap} {y : Nat} (h : p.HasRow y) :
    p.stride = .ok (p.width * pixelBytes) := by
  have hend := h.2
  rw [position_zero_succ] at hend
  exact Size.mul_of_lt (by omega)

/-- In a row, positions are computed without a fault. -/
theorem HasRow.offset_eq {p : Pixmap} {y : Nat} (h : p.HasRow y) {x : Nat} (hx : x ≤ p.width) :
    p.offset x y = .ok (p.position x y) := by
  have hend := Nat.lt_of_le_of_lt (p.position_le_position x y (y + 1) hx (by omega)) h.2
  unfold position at hend
  unfold offset position
  rw [h.stride_eq]
  simp only [bind, Except.bind]
  rw [Size.mul_of_lt (by omega), Size.mul_of_lt (by omega)]
  exact Size.add_of_lt (by omega)

def rowBytes (p : Pixmap) (y : Nat) : List UInt8 :=
  (p.bytes.extract (p.position 0 y) (p.position 0 (y + 1))).toList

/-- A row is read if it is there, and then its bytes are given out. -/
theorem row_eq_ok (p : Pixmap) (y : Nat) (values : List UInt8) :
    p.row y = .ok values ↔ p.HasRow y ∧ p.rowBytes y = values := by
  unfold row stride sliceBytes HasRow rowBytes
  rw [position_zero_succ, show p.position 0 y = y * (p.width * pixelBytes) by simp [position]]
  simp only [except_bind_eq_ok, except_ite_eq_ok, Size.mul_eq_ok, Size.add_eq_ok]
  constructor
  · rintro ⟨_, ⟨_, rfl⟩, _, ⟨_, rfl⟩, _, ⟨hend, rfl⟩, hroom, hvalues⟩
    exact ⟨⟨hroom, hend⟩, Except.ok.inj hvalues⟩
  · rintro ⟨⟨hroom, hend⟩, rfl⟩
    exact ⟨_, ⟨by omega, rfl⟩, _, ⟨by omega, rfl⟩, _, ⟨hend, rfl⟩, hroom, rfl⟩

theorem HasRow.length_rowBytes {p : Pixmap} {y : Nat} (h : p.HasRow y) :
    (p.rowBytes y).length = p.width * pixelBytes := by
  have hroom := h.1
  unfold rowBytes
  rw [Array.length_toList, Array.size_extract, Nat.min_eq_left hroom, position_zero_succ]
  simp [position]

theorem HasRow.pixel_le_size {p : Pixmap} {x y : Nat} (h : p.HasRow y) (hx : x < p.width) :
    p.position x y + pixelBytes ≤ p.bytes.size ∧ p.position x y + pixelBytes < Size.bound := by
  have hnext := p.position_le_position (x + 1) y (y + 1) hx (by omega)
  rw [position_add, Nat.one_mul] at hnext
  exact ⟨Nat.le_trans hnext h.1, Nat.lt_of_le_of_lt hnext h.2⟩

theorem HasRow.getElem?_rowBytes {p : Pixmap} {x y i : Nat} (h : p.HasRow y) (hx : x < p.width)
    (hi : i < pixelBytes) :
    (p.rowBytes y)[x * pixelBytes + i]? = p.bytes[p.position x y + i]? := by
  have hroom := h.1
  have hnext := p.position_le_position (x + 1) y (y + 1) hx (by omega)
  have hhere : p.position x y = p.position 0 y + x * pixelBytes := by
    simpa using p.position_add 0 x y
  rw [position_add] at hnext
  unfold rowBytes
  rw [Array.getElem?_toList, Array.getElem?_extract, if_pos (by omega), hhere, Nat.add_assoc]

theorem sliceBytes_color {data : Array UInt8} {start : Nat} {c : Color}
    (hroom : start + pixelBytes ≤ data.size) (hend : start + pixelBytes < Size.bound)
    (hc : colorAt? data start = some c) : sliceBytes data start pixelBytes = .ok c.bytes := by
  unfold sliceBytes
  rw [Size.add_of_lt hend]
  simp only [bind, Except.bind]
  rw [if_pos hroom]
  refine congrArg Except.ok (List.ext_getElem? fun i => ?_)
  rw [Array.getElem?_toList, Array.getElem?_extract, Nat.min_eq_left hroom, Nat.add_sub_cancel_left]
  split
  · rename_i hi
    rw [(colorAt?_eq_some_iff data start c).mp hc i hi]
    match i, hi with
    | 0, _ | 1, _ | 2, _ | 3, _ => rfl
  · rename_i hi
    exact (List.getElem?_eq_none (Nat.le_of_not_lt hi)).symm

theorem HasRow.exists_pixel? {p : Pixmap} {x y : Nat} (h : p.HasRow y) (hx : x < p.width)
    (hy : y < p.height) : ∃ c, p.pixel? x y = some c := by
  rw [pixel?, if_pos ⟨hx, hy⟩]
  exact exists_colorAt? (h.pixel_le_size hx).1

/-- Reading a pixel gives the color at its position. -/
theorem HasRow.pixel_eq_ok {p : Pixmap} {x y : Nat} (h : p.HasRow y) (c : Color) :
    p.pixel x y = .ok c ↔ p.pixel? x y = some c := by
  unfold pixel checkInside
  by_cases hx : x < p.width
  · by_cases hy : y < p.height
    · obtain ⟨c', hc'⟩ := h.exists_pixel? hx hy
      obtain ⟨hroom, hend⟩ := h.pixel_le_size hx
      have hbytes : colorAt? p.bytes (p.position x y) = some c' := by
        rwa [pixel?, if_pos ⟨hx, hy⟩] at hc'
      rw [if_neg (by omega), if_neg (by omega), h.offset_eq (by omega), hc']
      simp only [bind, Except.bind, sliceBytes_color hroom hend hbytes, Color.bytes]
      exact ⟨fun hok => congrArg some (Except.ok.inj hok),
        fun hsome => congrArg Except.ok (Option.some.inj hsome)⟩
    · rw [if_neg (by omega), if_pos (by omega), pixel?, if_neg (by omega)]
      simp [bind, Except.bind]
  · rw [if_pos (by omega), pixel?, if_neg (by omega)]
    simp [bind, Except.bind]

/-! ## Pixmaps that show the same -/

/-- Every byte belongs to a pixel. -/
theorem exists_position (p : Pixmap) {k : Nat} (h : k < p.width * p.height * pixelBytes) :
    ∃ x y i, (x < p.width ∧ y < p.height) ∧ i < pixelBytes ∧ p.position x y + i = k := by
  have hpixel : k / pixelBytes < p.width * p.height := Nat.div_lt_of_lt_mul (by rwa [Nat.mul_comm])
  have hwidth : 0 < p.width := Nat.pos_of_mul_pos_right (Nat.zero_lt_of_lt hpixel)
  refine ⟨k / pixelBytes % p.width, k / pixelBytes / p.width, k % pixelBytes,
    ⟨Nat.mod_lt _ hwidth, Nat.div_lt_of_lt_mul hpixel⟩, Nat.mod_lt _ (by decide), ?_⟩
  have hrow := Nat.div_add_mod (k / pixelBytes) p.width
  have hbyte := Nat.div_add_mod k pixelBytes
  unfold position
  rw [← Nat.mul_assoc, ← Nat.add_mul, Nat.mul_comm _ p.width, hrow, Nat.mul_comm, hbyte]

/-- A valid pixmap is told by its dimensions and what it shows. -/
theorem Valid.ext {p q : Pixmap} (hp : p.Valid) (hq : q.Valid) (hwidth : p.width = q.width)
    (hheight : p.height = q.height)
    (h : ∀ x < p.width, ∀ y < p.height, p.pixel? x y = q.pixel? x y) : p = q := by
  have hsize : p.bytes.size = q.bytes.size := by rw [hp.size_eq, hq.size_eq, hwidth, hheight]
  have hbytes : p.bytes = q.bytes := by
    refine Array.ext_getElem? fun k => ?_
    by_cases hk : k < p.bytes.size
    · obtain ⟨x, y, i, ⟨hx, hy⟩, hi, rfl⟩ := p.exists_position (hp.size_eq ▸ hk)
      obtain ⟨c, hc⟩ := (hp.hasRow hy).exists_pixel? hx hy
      have hc' : q.pixel? x y = some c := by rw [← h x hx y hy, hc]
      rw [pixel?, if_pos ⟨hx, hy⟩] at hc
      rw [pixel?, if_pos ⟨hwidth ▸ hx, hheight ▸ hy⟩] at hc'
      have hposition : q.position x y = p.position x y := by
        unfold position
        rw [hwidth]
      rw [(colorAt?_eq_some_iff ..).mp hc i hi, ← hposition, (colorAt?_eq_some_iff ..).mp hc' i hi]
    · rw [Array.getElem?_eq_none (by omega), Array.getElem?_eq_none (by omega)]
  obtain ⟨w, h, b⟩ := p
  obtain ⟨w', h', b'⟩ := q
  simp_all

/-! ## Shape -/

/-- One pixmap has the dimensions and the number of bytes of the other. -/
structure SameShape (p p' : Pixmap) : Prop where
  width_eq : p'.width = p.width
  height_eq : p'.height = p.height
  size_eq : p'.bytes.size = p.bytes.size

theorem SameShape.refl (p : Pixmap) : p.SameShape p := ⟨rfl, rfl, rfl⟩

theorem SameShape.trans {p p' p'' : Pixmap} (h : p.SameShape p') (h' : p'.SameShape p'') :
    p.SameShape p'' :=
  ⟨h'.width_eq.trans h.width_eq, h'.height_eq.trans h.height_eq, h'.size_eq.trans h.size_eq⟩

theorem SameShape.position_eq {p p' : Pixmap} (h : p.SameShape p') (x y : Nat) :
    p'.position x y = p.position x y := by
  unfold position
  rw [h.width_eq]

theorem SameShape.valid {p p' : Pixmap} (h : p.SameShape p') (hp : p.Valid) : p'.Valid where
  size_eq := by rw [h.size_eq, h.width_eq, h.height_eq, hp.size_eq]
  size_le := by rw [h.size_eq]; exact hp.size_le

/-- A pixmap of one color is made if a buffer can hold it. -/
theorem create_eq_ok (width height : Nat) (c : Color) (p : Pixmap) :
    create width height c = .ok p ↔
      pixelBytes * (width * height) ≤ Size.bytesMax ∧
        p = ⟨width, height, Array.ofFn (n := width * height * pixelBytes) fun i => c.byte i⟩ := by
  unfold create
  simp only [except_bind_eq_ok, except_ite_eq_ok, Size.mul_eq_ok]
  constructor
  · rintro ⟨_, ⟨_, rfl⟩, hroom, hp⟩
    exact ⟨hroom, (Except.ok.inj hp).symm⟩
  · rintro ⟨hroom, rfl⟩
    refine ⟨_, ⟨?_, rfl⟩, hroom, rfl⟩
    unfold pixelBytes Size.bytesMax at hroom
    unfold Size.bound
    omega

theorem valid_of_create {width height : Nat} {c : Color} {p : Pixmap}
    (h : create width height c = .ok p) : p.Valid ∧ p.width = width ∧ p.height = height := by
  obtain ⟨hroom, rfl⟩ := (create_eq_ok width height c p).mp h
  refine ⟨⟨by simp, ?_⟩, rfl, rfl⟩
  rw [Array.size_ofFn, Nat.mul_comm]
  exact hroom

/-! ## One color -/

theorem byte_position_add (c : Color) (p : Pixmap) (x y i : Nat) :
    c.byte (p.position x y + i) = c.byte i := by
  have hposition : p.position x y + i = i + 4 * (y * p.width + x) := by
    unfold position pixelBytes
    rw [← Nat.mul_assoc]
    omega
  unfold Color.byte
  rw [hposition, Nat.add_mul_mod_self_left]

def filled (p : Pixmap) (c : Color) : Pixmap :=
  { p with bytes := p.bytes.mapIdx fun i _ => c.byte i }

theorem filled_sameShape (p : Pixmap) (c : Color) : p.SameShape (p.filled c) :=
  ⟨rfl, rfl, by simp [filled]⟩

theorem pixel?_filled {p : Pixmap} (hp : p.Valid) (c : Color) {x y : Nat} (hx : x < p.width)
    (hy : y < p.height) : (p.filled c).pixel? x y = some c := by
  have hroom := ((hp.hasRow hy).pixel_le_size hx).1
  rw [pixel?, if_pos ⟨hx, hy⟩, (p.filled_sameShape c).position_eq, colorAt?_eq_some_iff]
  intro i hi
  simp only [filled, Array.getElem?_mapIdx]
  rw [Array.getElem?_eq_getElem (by omega), Option.map_some, byte_position_add]

end Pixmap

end TwinScreen
