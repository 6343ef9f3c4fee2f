import Mathlib.Data.List.Basic
import TwinScreen.BigEndian

/-!
# Bytes of data

What is read of data at a position is settled by the bytes that stand there (`HasBytes`), whatever
comes before and behind them. Data that is put together piece by piece consists of its pieces.
-/
namespace TwinScreen

/-- If every step adds bytes at the end, all of them follow each other. -/
theorem toList_foldl {α β : Type} {add : Array α → β → Array α} {piece : β → List α}
    (h : ∀ data b, (add data b).toList = data.toList ++ piece b) (l : List β) (data : Array α) :
    (l.foldl add data).toList = data.toList ++ l.flatMap piece := by
  induction l generalizing data with
  | nil => simp
  | cons b more ih => rw [List.foldl_cons, ih, h, List.flatMap_cons, List.append_assoc]

/-! ## Bytes at a position -/

/-- From a position on, the data starts with these bytes. -/
def HasBytes (data : Array UInt8) (i : Nat) (bytes : List UInt8) : Prop :=
  bytes <+: data.toList.drop i

theorem hasBytes_self (bytes : List UInt8) : HasBytes bytes.toArray 0 bytes := List.prefix_rfl

theorem hasBytes_append {data : Array UInt8} {i : Nat} {bytes more : List UInt8} :
    HasBytes data i (bytes ++ more) ↔
      HasBytes data i bytes ∧ HasBytes data (i + bytes.length) more := by
  unfold HasBytes
  rw [← List.drop_drop]
  constructor
  · rintro ⟨rest, h⟩
    rw [← h, List.append_assoc, List.drop_left]
    exact ⟨List.prefix_append .., List.prefix_append ..⟩
  · rintro ⟨⟨rest, h⟩, hmore⟩
    rw [← h, List.drop_left] at hmore
    rw [← h]
    exact (List.prefix_append_right_inj bytes).mpr hmore

namespace HasBytes

variable {data : Array UInt8} {i : Nat} {bytes : List UInt8}

theorem getElem? (h : HasBytes data i bytes) {j : Nat} (hj : j < bytes.length) :
    data[i + j]? = bytes[j]? := by
  obtain ⟨rest, h⟩ := h
  rw [← Array.getElem?_toList, ← List.getElem?_drop, ← h, List.getElem?_append_left hj]

theorem getElem?_start {b : UInt8} (h : HasBytes data i (b :: bytes)) : data[i]? = some b :=
  h.getElem? (Nat.zero_lt_succ bytes.length)

theorem le_size (h : HasBytes data i bytes) (hbytes : bytes ≠ []) :
    i + bytes.length ≤ data.size := by
  have hlength := h.length_le
  have hpos := List.length_pos_iff.mpr hbytes
  have hdata : data.toList.length = data.size := Array.length_toList
  rw [List.length_drop] at hlength
  omega

/-- What is cut out of the data there is those bytes. -/
theorem extract_eq (h : HasBytes data i bytes) :
    data.extract i (i + bytes.length) = bytes.toArray := by
  apply Array.toList_inj.mp
  rw [Array.toList_extract, List.extract_eq_take_drop, Nat.add_sub_cancel_left]
  exact (List.prefix_iff_eq_take.mp h).symm

end HasBytes

namespace BigEndian

@[simp] theorem length_longBytes (n : Nat) : (longBytes n).length = 4 := rfl

/-- A number is read where its bytes stand. -/
theorem long?_of_hasBytes {data : Array UInt8} {i n : Nat} (h : HasBytes data i (longBytes n))
    (hn : n < 0x100000000) : long? data i = some n := by
  have hbyte (j : Nat) (hj : j < 4) : data[i + j]? = (longBytes n)[j]? := h.getElem? hj
  have h0 := hbyte 0 (by decide)
  rw [Nat.add_zero] at h0
  have hread : long? data i = some (65536 * (256 * (UInt8.ofNat (n / 16777216)).toNat +
      (UInt8.ofNat (n / 65536)).toNat) +
      (256 * (UInt8.ofNat (n / 256)).toNat + (UInt8.ofNat n).toNat)) := by
    unfold long? word? byte?
    rw [h0, hbyte 1 (by decide), Nat.add_assoc, hbyte 2 (by decide), hbyte 3 (by decide)]
    rfl
  rw [hread, Option.some_inj]
  simp only [UInt8.toNat_ofNat']
  omega

end BigEndian

end TwinScreen
