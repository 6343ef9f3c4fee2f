import TwinScreen.Proofs.Pixmap.Drawing

/-!
# Images composited on a pixmap

An image is drawn pixel by pixel, each on what the ones before it have left. Since no two of its
pixels fall on the same place, each is composited on the old color there, and what falls outside is
lost without harm. So a drawn image is the image clipped to the pixmap and composited once
(`draw_composited`).
-/
namespace TwinScreen.Pixmap

/-- Those pixels of an image that are `done` have been composited on a pixmap, the upper left corner
of the image at `(x, y)`; elsewhere the pixmap shows what it showed. -/
structure Overlaid (image : Pixmap) (x y : Int) (done : Nat → Nat → Prop) (p p' : Pixmap) :
    Prop where
  shape : p.SameShape p'
  covered : ∀ a b c, done a b → image.pixel? a b = some c →
    ∀ i j : Nat, i = x + a → j = y + b → p'.pixel? i j = (p.pixel? i j).map c.onto
  others : ∀ i j : Nat, (∀ a b, done a b → ¬ (i = x + a ∧ j = y + b)) →
    p'.pixel? i j = p.pixel? i j

namespace Overlaid

variable {image p t : Pixmap} {x y : Int} {done done' : Nat → Nat → Prop}

theorem start (hnone : ∀ a b, ¬ done a b) : Overlaid image x y done p p where
  shape := .refl p
  covered := fun a b _ h => absurd h (hnone a b)
  others := fun _ _ _ => rfl

theorem congr (h : Overlaid image x y done p t) (hdone : ∀ a b, done a b ↔ done' a b) :
    Overlaid image x y done' p t where
  shape := h.shape
  covered := fun a b c hab => h.covered a b c ((hdone a b).mpr hab)
  others := fun i j hij => h.others i j fun a b hab => hij a b ((hdone a b).mp hab)

/-- The next pixel falls on a place where nothing has been composited before. -/
theorem blend (h : Overlaid image x y done p t) (hp : p.Valid) {a b : Nat} {c : Color}
    (hc : image.pixel? a b = some c) (hnew : ¬ done a b) :
    ∃ t', (blend (x + a) (y + b) c).run t = .ok () t' ∧
      Overlaid image x y (fun a' b' => done a' b' ∨ a' = a ∧ b' = b) p t' := by
  have ht := h.shape.valid hp
  obtain ⟨t', hrun, hshape⟩ := exists_blend ht (x + a) (y + b) c
  have hpixel := pixel?_blend ht hrun
  refine ⟨t', hrun, ⟨h.shape.trans hshape, ?_, ?_⟩⟩
  · rintro a' b' c' (hold | ⟨rfl, rfl⟩) hc' i j hi hj
    · have hother : ¬ (a' = a ∧ b' = b) := by
        rintro ⟨rfl, rfl⟩
        exact hnew hold
      rw [hpixel, if_neg (by omega)]
      exact h.covered a' b' c' hold hc' i j hi hj
    · obtain rfl : c = c' := Option.some.inj (hc.symm.trans hc')
      rw [hpixel, if_pos ⟨hi, hj⟩, h.others]
      intro a'' b'' hold hplace
      obtain ⟨rfl, rfl⟩ : a'' = a' ∧ b'' = b' := by omega
      exact hnew hold
  · intro i j hij
    rw [hpixel, if_neg (hij a b (.inr ⟨rfl, rfl⟩))]
    exact h.others i j fun a' b' hold => hij a' b' (.inl hold)

end Overlaid

/-! ## Images -/

/-- A valid image whose edges lie at coordinates when its upper left corner is at `(x, y)`. -/
structure Placeable (image : Pixmap) (x y : Int) : Prop where
  valid : image.Valid
  columns : -0x80000000 ≤ x ∧ x + image.width ≤ 0x80000000
  rows : -0x80000000 ≤ y ∧ y + image.height ≤ 0x80000000
  width_le : image.width ≤ 0x80000000
  height_le : image.height ≤ 0x80000000

section Draw

variable {image target : Pixmap} {x y : Int}

/-- A row of an image is drawn pixel by pixel, behind the rows above it. -/
theorem exists_drawRow {t : Pixmap} {row : Nat} (himage : image.Placeable x y)
    (htarget : target.Valid) (hrow : row < image.height)
    (ht : Overlaid image x y (fun a b => a < image.width ∧ b < row) target t) :
    ∃ t', (image.drawRow x y row).run t = .ok () t' ∧
      Overlaid image x y (fun a b => a < image.width ∧ b < row + 1) target t' := by
  obtain ⟨hvalid, hx, hy, hwidth, hheight⟩ := himage
  have himageRow := hvalid.hasRow hrow
  have hloop : ∃ t', (image.drawRow x y row).run t = .ok () t' ∧ Overlaid image x y
      (fun a b => a < image.width ∧ b < row ∨ a < image.width ∧ b = row) target t' := by
    apply Step.exists_forM (fun column => Overlaid image x y
      (fun a b => a < image.width ∧ b < row ∨ a < column ∧ b = row) target)
    · intro column hcolumn s hs
      obtain ⟨c, hc⟩ := himageRow.exists_pixel? hcolumn hrow
      obtain ⟨s', hblend, hs'⟩ := hs.blend htarget hc (by omega)
      refine ⟨s', ?_, hs'.congr fun a b => by omega⟩
      rw [Offset.ofSize_of_lt (by omega), Offset.ofSize_of_lt (by omega),
        Offset.add_of_fits ⟨by omega, by omega⟩, Step.run_bind_of_ok (Step.run_lift_ok ..),
        Offset.add_of_fits ⟨by omega, by omega⟩, Step.run_bind_of_ok (Step.run_lift_ok ..),
        (himageRow.pixel_eq_ok c).mpr hc, Step.run_bind_of_ok (Step.run_lift_ok ..)]
      exact hblend
    · exact ht.congr fun a b => by omega
  obtain ⟨t', hrun, ht'⟩ := hloop
  exact ⟨t', hrun, ht'.congr fun a b => by omega⟩

theorem exists_draw (himage : image.Placeable x y) (htarget : target.Valid) :
    ∃ target', (image.draw x y).run target = .ok () target' ∧
      Overlaid image x y (fun a b => a < image.width ∧ b < image.height) target target' := by
  apply Step.exists_forM (fun row => Overlaid image x y
    (fun a b => a < image.width ∧ b < row) target)
  · intro row hrow t ht
    exact exists_drawRow himage htarget hrow ht
  · exact Overlaid.start fun a b => by omega

/-- An image whose edges lie at coordinates is drawn, and then each position of the target shows the
color of the image there on its old color, or its old color where it lies outside of the image. -/
theorem draw_composited (himage : image.Valid) (htarget : target.Valid) (hx : Offset.Fits x)
    (hy : Offset.Fits y) (hwidth : image.width ≤ 0x80000000) (hheight : image.height ≤ 0x80000000)
    (hright : x + image.width - 1 ≤ 0x7FFFFFFF) (hbottom : y + image.height - 1 ≤ 0x7FFFFFFF) :
    ∃ target', (image.draw x y).run target = .ok () target' ∧ target.SameShape target' ∧
      ∀ i < target.width, ∀ j < target.height, ∃ old, target.pixel i j = .ok old ∧
        target'.pixel i j =
          if (0 ≤ i - x ∧ i - x < image.width) ∧ 0 ≤ j - y ∧ j - y < image.height then
            (image.pixel (i - x).toNat (j - y).toNat).map fun color => color.onto old
          else .ok old := by
  have hplace : image.Placeable x y :=
    ⟨himage, ⟨hx.1, by omega⟩, ⟨hy.1, by omega⟩, hwidth, hheight⟩
  obtain ⟨target', hrun, hover⟩ := exists_draw hplace htarget
  refine ⟨target', hrun, hover.shape, ?_⟩
  intro i hi j hj
  have hrow := htarget.hasRow hj
  have hrow' : target'.HasRow j :=
    (hover.shape.valid htarget).hasRow (by rwa [hover.shape.height_eq])
  obtain ⟨old, hold⟩ := hrow.exists_pixel? hi hj
  refine ⟨old, (hrow.pixel_eq_ok old).mpr hold, ?_⟩
  split
  · rename_i hinside
    have hcolumn : (i - x).toNat < image.width := by omega
    have hline : (j - y).toNat < image.height := by omega
    obtain ⟨color, hcolor⟩ := (himage.hasRow hline).exists_pixel? hcolumn hline
    have hpixel := hover.covered _ _ color ⟨hcolumn, hline⟩ hcolor i j (by omega) (by omega)
    rw [hold] at hpixel
    rw [((himage.hasRow hline).pixel_eq_ok color).mpr hcolor]
    exact (hrow'.pixel_eq_ok _).mpr hpixel
  · rename_i houtside
    rw [hrow'.pixel_eq_ok, hover.others i j fun a b hab hij => houtside (by omega), hold]

end Draw

/-- Of an image that hangs over the left and the lower edge one pixel is seen. -/
theorem draw_composited_clipped :
    (⟨2, 2, #[1, 2, 3, 4, 250, 0, 100, 102, 5, 6, 7, 8, 9, 10, 11, 12]⟩ : Pixmap).Valid ∧
    (⟨2, 1, #[0, 250, 100, 255, 0, 0, 0, 255]⟩ : Pixmap).Valid ∧
    Offset.Fits (-1) ∧ Offset.Fits 0 ∧
    ∃ target',
      (draw ⟨2, 2, #[1, 2, 3, 4, 250, 0, 100, 102, 5, 6, 7, 8, 9, 10, 11, 12]⟩ (-1) 0).run
        ⟨2, 1, #[0, 250, 100, 255, 0, 0, 0, 255]⟩ = .ok () target' ∧
      (target'.width = 2 ∧ target'.height = 1) ∧
      target'.pixel 0 0 = .ok ⟨100, 150, 100, 255⟩ ∧ target'.pixel 1 0 = .ok ⟨0, 0, 0, 255⟩ := by
  have himage :
      (⟨2, 2, #[1, 2, 3, 4, 250, 0, 100, 102, 5, 6, 7, 8, 9, 10, 11, 12]⟩ : Pixmap).Valid :=
    ⟨by decide, by decide⟩
  have htarget : (⟨2, 1, #[0, 250, 100, 255, 0, 0, 0, 255]⟩ : Pixmap).Valid :=
    ⟨by decide, by decide⟩
  have hleft : Offset.Fits (-1) := ⟨by decide, by decide⟩
  have htop : Offset.Fits 0 := ⟨by decide, by decide⟩
  obtain ⟨target', hrun, hshape, hpixels⟩ :=
    draw_composited himage htarget hleft htop (by decide) (by decide) (by decide) (by decide)
  refine ⟨himage, htarget, hleft, htop, target', hrun, ⟨hshape.width_eq, hshape.height_eq⟩, ?_, ?_⟩
  · obtain ⟨old, hold, hnew⟩ := hpixels 0 (by decide) 0 (by decide)
    obtain rfl : ⟨0, 250, 100, 255⟩ = old := Except.ok.inj hold
    exact hnew
  · obtain ⟨old, hold, hnew⟩ := hpixels 1 (by decide) 0 (by decide)
    obtain rfl : ⟨0, 0, 0, 255⟩ = old := Except.ok.inj hold
    exact hnew

end TwinScreen.Pixmap
