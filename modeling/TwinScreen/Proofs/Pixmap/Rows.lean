import Mathlib.Data.List.Basic
import TwinScreen.Proofs.Pixmap.Pixels

/-!
# Rows of bytes

Data that are written row after row begin with the rows written so far (`BeginsWith`). So do the
bytes of a pixmap with its own rows, and when the rows fill them, they are all there is.
-/
namespace TwinScreen

/-! ## Rows of one length -/

theorem length_flatMap_range {row : Nat → List UInt8} {rowBytes count : Nat}
    (h : ∀ y < count, (row y).length = rowBytes) :
    ((List.range count).flatMap row).length = count * rowBytes := by
  induction count with
  | zero => simp
  | succ count ih =>
    rw [List.range_succ, List.flatMap_append, List.flatMap_singleton, List.length_append,
      ih fun y hy => h y (by omega), h count (by omega), Nat.succ_mul]

/-- Rows of one length can be told from what they make together. -/
theorem flatMap_range_inj {row row' : Nat → List UInt8} {rowBytes count : Nat}
    (h : ∀ y < count, (row y).length = rowBytes) (h' : ∀ y < count, (row' y).length = rowBytes)
    (heq : (List.range count).flatMap row = (List.range count).flatMap row') :
    ∀ y < count, row y = row' y := by
  induction count with
  | zero => simp
  | succ count ih =>
    simp only [List.range_succ, List.flatMap_append, List.flatMap_singleton] at heq
    have hlast : (row count).length = (row' count).length := by
      rw [h count (by omega), h' count (by omega)]
    obtain ⟨hfront, hend⟩ := List.append_inj' heq hlast
    intro y hy
    rcases Nat.lt_succ_iff_lt_or_eq.mp hy with hy | rfl
    · exact ih (fun y hy => h y (by omega)) (fun y hy => h' y (by omega)) hfront y hy
    · exact hend

/-- A list consists of its slices of one length. -/
theorem flatMap_slices {α : Type} (l : List α) (size count : Nat) :
    (List.range count).flatMap (fun i => (l.drop (i * size)).take size) =
      l.take (count * size) := by
  induction count with
  | zero => simp
  | succ count ih =>
    rw [List.range_succ, List.flatMap_append, List.flatMap_singleton, ih, Nat.succ_mul,
      List.take_add]

/-- Pieces of one length are the slices of what they make together. -/
theorem slice_flatMap {α β : Type} {piece : α → List β} {size : Nat}
    (h : ∀ a, (piece a).length = size) (l : List α) {k : Nat} (hk : k < l.length) :
    ((l.flatMap piece).drop (k * size)).take size = piece l[k] := by
  induction l generalizing k with
  | nil => simp at hk
  | cons a more ih =>
    rw [List.flatMap_cons]
    cases k with
    | zero => rw [Nat.zero_mul, List.drop_zero, List.take_left' (h a), List.getElem_cons_zero]
    | succ k =>
      have hmore : k < more.length := Nat.lt_of_succ_lt_succ hk
      rw [Nat.succ_mul, Nat.add_comm, ← List.drop_drop, List.drop_left' (h a), ih hmore,
        List.getElem_cons_succ]

/-! ## Data written row after row -/

/-- The data begin with the first `count` rows, each of `rowBytes` bytes. -/
def BeginsWith (data : Array UInt8) (row : Nat → List UInt8) (rowBytes count : Nat) : Prop :=
  data.toList.take (count * rowBytes) = (List.range count).flatMap row

/-- Writing behind a part of the data leaves that part in front of what was written. -/
theorem take_writeBytes (data : Array UInt8) (start : Nat) (values : List UInt8)
    (hroom : start + values.length ≤ data.size) :
    (writeBytes data start values).toList.take (start + values.length) =
      data.toList.take start ++ values := by
  have hfront : (data.toList.take start).length = start := by
    rw [List.length_take, Array.length_toList]
    omega
  refine List.ext_getElem? fun i => ?_
  rw [List.getElem?_take, Array.getElem?_toList]
  rcases Nat.lt_or_ge i start with hbefore | hbehind
  · rw [if_pos (by omega), writeBytes_frame _ _ _ _ (.inl hbefore),
      List.getElem?_append_left (by omega), List.getElem?_take, if_pos hbefore,
      Array.getElem?_toList]
  · obtain ⟨j, rfl⟩ := Nat.exists_eq_add_of_le hbehind
    rw [List.getElem?_append_right (by omega), hfront, Nat.add_sub_cancel_left]
    by_cases hj : j < values.length
    · rw [if_pos (by omega), writeBytes_lane _ _ _ _ hroom hj]
    · rw [if_neg (by omega), List.getElem?_eq_none (by omega)]

namespace BeginsWith

variable {data : Array UInt8} {row : Nat → List UInt8} {rowBytes count : Nat}

theorem zero (data : Array UInt8) (row : Nat → List UInt8) (rowBytes : Nat) :
    BeginsWith data row rowBytes 0 := by
  simp [BeginsWith]

theorem writeBytes (h : BeginsWith data row rowBytes count) (hrow : (row count).length = rowBytes)
    (hroom : (count + 1) * rowBytes ≤ data.size) :
    BeginsWith (writeBytes data (count * rowBytes) (row count)) row rowBytes (count + 1) := by
  unfold BeginsWith at h ⊢
  rw [Nat.succ_mul] at hroom ⊢
  have hwritten := take_writeBytes data (count * rowBytes) (row count) (by rwa [hrow])
  rw [hrow, h] at hwritten
  rw [hwritten, List.range_succ, List.flatMap_append, List.flatMap_singleton]

theorem toList_eq (h : BeginsWith data row rowBytes count) (hsize : data.size = count * rowBytes) :
    data.toList = (List.range count).flatMap row := by
  rw [← h, ← hsize, ← Array.length_toList, List.take_length]

end BeginsWith

namespace Pixmap

theorem rowBytes_eq (p : Pixmap) (y : Nat) :
    p.rowBytes y =
      (p.bytes.toList.drop (y * (p.width * pixelBytes))).take (p.width * pixelBytes) := by
  have hstart : p.position 0 y = y * (p.width * pixelBytes) := by simp [position]
  rw [rowBytes, position_zero_succ, hstart, Array.toList_extract, List.extract_eq_take_drop,
    Nat.add_sub_cancel_left]

/-- As many of its rows as one likes are what a pixmap begins with. -/
theorem beginsWith_rowBytes (p : Pixmap) (count : Nat) :
    BeginsWith p.bytes p.rowBytes (p.width * pixelBytes) count := by
  unfold BeginsWith
  rw [← flatMap_slices]
  exact List.flatMap_congr fun y _ => (p.rowBytes_eq y).symm

/-- A pixmap of the right number of bytes consists of its rows. -/
theorem toList_bytes {p : Pixmap} (h : p.bytes.size = p.width * p.height * pixelBytes) :
    p.bytes.toList = (List.range p.height).flatMap p.rowBytes :=
  (p.beginsWith_rowBytes p.height).toList_eq (by rw [h, Nat.mul_right_comm, Nat.mul_comm])

/-- A pixel is four bytes of its row. -/
theorem HasRow.bytes_eq {p : Pixmap} {x y : Nat} (h : p.HasRow y) (hx : x < p.width) {c : Color}
    (hc : p.pixel? x y = some c) :
    c.bytes = ((p.rowBytes y).drop (x * pixelBytes)).take pixelBytes := by
  have hcolor : colorAt? p.bytes (p.position x y) = some c := by
    unfold pixel? at hc
    split at hc
    · exact hc
    · cases hc
  refine List.ext_getElem? fun i => ?_
  rw [List.getElem?_take, List.getElem?_drop]
  split
  · rename_i hi
    rw [h.getElem?_rowBytes hx hi, (colorAt?_eq_some_iff ..).mp hcolor i hi]
    match i, hi with
    | 0, _ | 1, _ | 2, _ | 3, _ => rfl
  · rename_i hi
    exact List.getElem?_eq_none (Nat.le_of_not_lt hi)

end Pixmap

end TwinScreen
