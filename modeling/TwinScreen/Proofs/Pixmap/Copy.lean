import TwinScreen.Pixmap.Draw
import TwinScreen.Proofs.Pixmap.Pixels

/-!
# Copying into a rectangle

A copy that succeeds has replaced the pixels of one rectangle by those of the source, which all
could be read, and has left every other pixel alone (`copy_pasted`). It succeeds whenever the source
fits (`exists_copy`), and keeps the shape of the pixmap whatever becomes of it.
-/
namespace TwinScreen.Pixmap

/-! ## Writing -/

theorem write_eq_ok (start : Nat) (values : List UInt8) (p p' : Pixmap) :
    (write start values).run p = .ok () p' ↔
      (start + values.length < Size.bound ∧ start + values.length ≤ p.bytes.size) ∧
        { p with bytes := writeBytes p.bytes start values } = p' := by
  simp only [write, EStateM.run]
  by_cases hend : start + values.length < Size.bound
  · rw [Size.add_of_lt hend]
    dsimp only
    split <;> rename_i hroom <;> simp [hend, hroom]
  · simp [Size.add, Size.fit, hend]

theorem written_sameShape (p : Pixmap) (start : Nat) (values : List UInt8) :
    p.SameShape { p with bytes := writeBytes p.bytes start values } :=
  ⟨rfl, rfl, size_writeBytes ..⟩

theorem write_preserves (p : Pixmap) (start : Nat) (values : List UInt8) :
    Step.Preserves p.SameShape (write start values) := by
  intro t ht
  unfold Step.after
  split
  · rename_i u t' h
    obtain ⟨_, rfl⟩ := (write_eq_ok start values t t').mp h
    exact ht.trans (t.written_sameShape start values)
  · rename_i e t' h
    simp only [write, EStateM.run] at h
    split at h
    · obtain ⟨_, rfl⟩ := EStateM.Result.error.inj h
      exact ht
    · split at h
      · cases h
      · obtain ⟨_, rfl⟩ := EStateM.Result.error.inj h
        exact ht

/-! ## One row -/

theorem position_mono (p : Pixmap) {x x' : Nat} (y : Nat) (h : x ≤ x') :
    p.position x y ≤ p.position x' y :=
  Nat.add_le_add_left (Nat.mul_le_mul_right _ h) _

/-- Pixels with the same bytes have the same color, also in pixmaps of different widths. -/
theorem pixel?_congr {p p' : Pixmap} {i j i' j' : Nat}
    (hinside : i < p.width ∧ j < p.height ↔ i' < p'.width ∧ j' < p'.height)
    (hbytes : i < p.width → j < p.height → ∀ b < pixelBytes,
      p.bytes[p.position i j + b]? = p'.bytes[p'.position i' j' + b]?) :
    p.pixel? i j = p'.pixel? i' j' := by
  unfold pixel?
  by_cases h : i < p.width ∧ j < p.height
  · rw [if_pos h, if_pos (hinside.mp h), colorAt?_congr (hbytes h.1 h.2)]
  · rw [if_neg h, if_neg (fun h' => h (hinside.mpr h'))]

/-- A pixmap with one row of a source written into row `r`, from column `x` on. -/
def withRow (p source : Pixmap) (x r row : Nat) : Pixmap :=
  { p with bytes := writeBytes p.bytes (p.position x r) (source.rowBytes row) }

/-- Inside the row the pixmap shows the source. -/
theorem pixel?_withRow_inside {p source : Pixmap} {x r row i : Nat} (hsource : source.HasRow row)
    (hfits : x + source.width ≤ p.width) (hr : r < p.height) (hrow : row < source.height)
    (hroom : p.position x r + (source.rowBytes row).length ≤ p.bytes.size)
    (hi : i < source.width) :
    (p.withRow source x r row).pixel? (x + i) r = source.pixel? i row := by
  refine pixel?_congr ⟨fun _ => ⟨hi, hrow⟩, fun _ => ⟨?_, hr⟩⟩ fun _ _ b hb => ?_
  · exact Nat.lt_of_lt_of_le (Nat.add_lt_add_left hi x) hfits
  · have hlane : i * pixelBytes + b < (source.rowBytes row).length := by
      rw [hsource.length_rowBytes]
      unfold pixelBytes at hb ⊢
      omega
    have hposition : (p.withRow source x r row).position (x + i) r =
        p.position x r + i * pixelBytes := p.position_add x i r
    rw [hposition, Nat.add_assoc, withRow, writeBytes_lane _ _ _ _ hroom hlane,
      hsource.getElem?_rowBytes hi hb]

theorem pixel?_withRow_outside {p source : Pixmap} {x r row i j : Nat} (hsource : source.HasRow row)
    (hfits : x + source.width ≤ p.width) (hij : ¬ (x ≤ i ∧ i < x + source.width ∧ j = r)) :
    (p.withRow source x r row).pixel? i j = p.pixel? i j := by
  refine pixel?_congr Iff.rfl fun hi _ b hb => ?_
  have hposition : (p.withRow source x r row).position i j = p.position i j := rfl
  rw [hposition, withRow]
  refine writeBytes_frame _ _ _ _ ?_
  have hend : p.position x r + (source.rowBytes row).length = p.position (x + source.width) r := by
    rw [hsource.length_rowBytes, position_add]
  have hnext : p.position (i + 1) j = p.position i j + pixelBytes := by
    rw [position_add, Nat.one_mul]
  have hi : i < p.width := hi
  rcases Nat.lt_trichotomy j r with habove | rfl | hbelow
  · have hrows := p.position_le_position (i + 1) j r (by omega) habove
    have hcolumns := p.position_mono r (Nat.zero_le x)
    omega
  · by_cases hleft : i < x
    · have hcolumns := p.position_mono j (show i + 1 ≤ x by omega)
      omega
    · have hcolumns := p.position_mono j (show x + source.width ≤ i by omega)
      omega
  · have hrows := p.position_le_position (x + source.width) r j hfits hbelow
    have hcolumns := p.position_mono j (Nat.zero_le i)
    omega

/-! ## A rectangle -/

/-- The position lies in the rectangle of the given size whose upper left corner is `(x, y)`. -/
def InRect (x y width height i j : Nat) : Prop :=
  x ≤ i ∧ i < x + width ∧ y ≤ j ∧ j < y + height

theorem InRect.exists_add {x y width height i j : Nat} (h : InRect x y width height i j) :
    ∃ a < width, ∃ b < height, i = x + a ∧ j = y + b := by
  obtain ⟨hleft, hright, habove, hbelow⟩ := h
  exact ⟨i - x, by omega, j - y, by omega, by omega, by omega⟩

/-- The first rows of a source stand in the rectangle with the upper left corner `(x, y)`; outside
the rectangle nothing has changed. -/
structure Pasted (source : Pixmap) (x y rows : Nat) (p p' : Pixmap) : Prop where
  shape : p.SameShape p'
  readable : ∀ j < rows, source.HasRow j
  inside : ∀ i < source.width, ∀ j < rows, p'.pixel? (x + i) (y + j) = source.pixel? i j
  outside : ∀ i j, ¬ InRect x y source.width rows i j → p'.pixel? i j = p.pixel? i j

theorem Pasted.zero (source : Pixmap) (x y : Nat) (p : Pixmap) : Pasted source x y 0 p p where
  shape := .refl p
  readable := by simp
  inside := by simp
  outside := fun _ _ _ => rfl

/-- One more row of the source is in its place. -/
theorem Pasted.withRow {source p t : Pixmap} {x y row : Nat} (h : Pasted source x y row p t)
    (hsource : source.HasRow row) (hfits : x + source.width ≤ p.width)
    (hr : y + row < p.height) (hrow : row < source.height)
    (hroom : t.position x (y + row) + (source.rowBytes row).length ≤ t.bytes.size) :
    Pasted source x y (row + 1) p (t.withRow source x (y + row) row) where
  shape := h.shape.trans (t.written_sameShape _ _)
  readable := by
    intro j hj
    rcases Nat.lt_succ_iff_lt_or_eq.mp hj with hj | rfl
    · exact h.readable j hj
    · exact hsource
  inside := by
    intro i hi j hj
    have ht : x + source.width ≤ t.width := by rwa [h.shape.width_eq]
    -- A row from before, which the new one leaves alone, or the new one itself.
    rcases Nat.lt_succ_iff_lt_or_eq.mp hj with hj | rfl
    · rw [pixel?_withRow_outside hsource ht (by omega)]
      exact h.inside i hi j hj
    · exact pixel?_withRow_inside hsource ht (by rwa [h.shape.height_eq]) hrow hroom hi
  outside := by
    intro i j hij
    have ht : x + source.width ≤ t.width := by rwa [h.shape.width_eq]
    unfold InRect at hij
    rw [pixel?_withRow_outside hsource ht (by omega)]
    exact h.outside i j (by unfold InRect; omega)

theorem position_of_offset {p : Pixmap} {x y n : Nat} (h : p.offset x y = .ok n) :
    n = p.position x y := by
  simp only [offset, stride, except_bind_eq_ok, Size.mul_eq_ok, Size.add_eq_ok] at h
  obtain ⟨_, ⟨_, rfl⟩, _, ⟨_, rfl⟩, _, ⟨_, rfl⟩, _, rfl⟩ := h
  rfl

theorem copyRow_eq_ok {source t t' : Pixmap} {x y row : Nat}
    (h : (copyRow source x y row).run t = .ok () t') :
    source.HasRow row ∧
      t.position x (y + row) + (source.rowBytes row).length ≤ t.bytes.size ∧
      t' = t.withRow source x (y + row) row := by
  simp only [copyRow, Step.run_get_bind, Step.bind_eq_ok, Step.lift_eq_ok, Size.add_eq_ok,
    row_eq_ok, write_eq_ok] at h
  obtain ⟨_, _, ⟨⟨_, rfl⟩, rfl⟩, start, _, ⟨hstart, rfl⟩, _, _, ⟨⟨hsource, rfl⟩, rfl⟩,
    ⟨_, hroom⟩, rfl⟩ := h
  obtain rfl := position_of_offset hstart
  exact ⟨hsource, hroom, rfl⟩

theorem exists_copyRow {source t : Pixmap} {x y row : Nat} (hsource : source.HasRow row)
    (ht : t.HasRow (y + row)) (hfits : x + source.width ≤ t.width)
    (hsum : y + row < Size.bound) :
    (copyRow source x y row).run t = .ok () (t.withRow source x (y + row) row) := by
  have hend := t.position_le_position (x + source.width) (y + row) (y + row + 1) hfits (by omega)
  rw [position_add, ← hsource.length_rowBytes] at hend
  unfold copyRow
  rw [Step.run_get_bind, Size.add_of_lt hsum,
    Step.run_bind_of_ok (Step.run_lift_ok ..), ht.offset_eq (by omega),
    Step.run_bind_of_ok (Step.run_lift_ok ..), (row_eq_ok ..).mpr ⟨hsource, rfl⟩,
    Step.run_bind_of_ok (Step.run_lift_ok ..), write_eq_ok]
  exact ⟨⟨Nat.lt_of_le_of_lt hend ht.2, Nat.le_trans hend ht.1⟩, rfl⟩

theorem copy_eq_ok (source p p' : Pixmap) (x y : Nat) :
    (source.copy x y).run p = .ok () p' ↔
      (x + source.width < Size.bound ∧ x + source.width ≤ p.width) ∧
        (y + source.height < Size.bound ∧ y + source.height ≤ p.height) ∧
        ((List.range source.height).forM (source.copyRow x y)).run p = .ok () p' := by
  simp only [copy, Step.run_get_bind, Step.bind_eq_ok, Step.lift_eq_ok, Size.add_eq_ok,
    Step.check_eq_ok, Nat.not_lt]
  constructor
  · rintro ⟨_, _, ⟨⟨hx, rfl⟩, rfl⟩, hright, _, _, ⟨⟨hy, rfl⟩, rfl⟩, hbelow, hrows⟩
    exact ⟨⟨hx, hright⟩, ⟨hy, hbelow⟩, hrows⟩
  · rintro ⟨⟨hx, hright⟩, ⟨hy, hbelow⟩, hrows⟩
    exact ⟨_, p, ⟨⟨hx, rfl⟩, rfl⟩, hright, _, p, ⟨⟨hy, rfl⟩, rfl⟩, hbelow, hrows⟩

/-- A copy that succeeds puts all rows of the source into the rectangle and changes nothing else. -/
theorem copy_pasted {source p p' : Pixmap} {x y : Nat} (h : (source.copy x y).run p = .ok () p') :
    (x + source.width ≤ p.width ∧ y + source.height ≤ p.height) ∧
      Pasted source x y source.height p p' := by
  obtain ⟨⟨_, hright⟩, ⟨_, hbelow⟩, hrows⟩ := (copy_eq_ok source p p' x y).mp h
  refine ⟨⟨hright, hbelow⟩, ?_⟩
  refine Step.forM_ok (fun k => Pasted source x y k p) ?_ (.zero source x y p) hrows
  intro k hk t t' ht hrow
  obtain ⟨hsource, hroom, rfl⟩ := copyRow_eq_ok hrow
  exact ht.withRow hsource hright (by omega) hk hroom

/-- A valid source that fits into a valid pixmap is copied. -/
theorem exists_copy {source p : Pixmap} {x y : Nat} (hsource : source.Valid) (hp : p.Valid)
    (hx : x + source.width < Size.bound) (hy : y + source.height < Size.bound)
    (hright : x + source.width ≤ p.width) (hbelow : y + source.height ≤ p.height) :
    ∃ p', (source.copy x y).run p = .ok () p' := by
  have hround : ∀ k < source.height, ∀ t, p.SameShape t →
      ∃ t', (source.copyRow x y k).run t = .ok () t' ∧ p.SameShape t' := by
    intro k hk t ht
    have htarget : t.HasRow (y + k) := (ht.valid hp).hasRow (by rw [ht.height_eq]; omega)
    refine ⟨_, exists_copyRow (hsource.hasRow hk) htarget ?_ (by omega), ?_⟩
    · rwa [ht.width_eq]
    · exact ht.trans (t.written_sameShape _ _)
  obtain ⟨p', hrows, _⟩ := Step.exists_forM (fun _ => p.SameShape) hround (.refl p)
  exact ⟨p', (copy_eq_ok source p p' x y).mpr ⟨⟨hx, hright⟩, ⟨hy, hbelow⟩, hrows⟩⟩

theorem copyRow_preserves (p source : Pixmap) (x y row : Nat) :
    Step.Preserves p.SameShape (copyRow source x y row) :=
  Step.Preserves.get.bind fun _ => (Step.Preserves.lift _).bind fun _ =>
    (Step.Preserves.lift _).bind fun _ => (Step.Preserves.lift _).bind fun _ =>
      write_preserves p _ _

/-- Copying keeps the shape, also where it fails half-way. -/
theorem copy_preserves (p source : Pixmap) (x y : Nat) :
    Step.Preserves p.SameShape (source.copy x y) := by
  unfold copy
  refine Step.Preserves.get.bind fun _ => (Step.Preserves.lift _).bind fun _ => ?_
  refine .check _ _ <| (Step.Preserves.lift _).bind fun _ => .check _ _ ?_
  exact .forM _ fun row => copyRow_preserves p source x y row

end TwinScreen.Pixmap
