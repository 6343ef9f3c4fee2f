import TwinScreen.Proofs.Pixmap.Compositing
import TwinScreen.Proofs.Typesetter

/-!
# Drawing on a part of a pixmap

What falls outside of a pixmap is clipped, so it makes no difference whether a pixmap is cropped
before or after images and texts have been drawn on it (`draw_crop`). Images and texts are drawn as
sequences of colors that do not depend on what is drawn on, so one composited color is enough to
show this (`blend_commutes`).
-/
namespace TwinScreen.Pixmap

/-! ## The upper left part -/

/-- The first `width` pixels of each of the first `height` rows. -/
def crop (width height : Nat) (p : Pixmap) : Pixmap where
  width := width
  height := height
  bytes := ((List.range height).flatMap fun y => (p.rowBytes y).take (width * pixelBytes)).toArray

section Crop

variable {p : Pixmap} {width height : Nat}

theorem length_take_rowBytes (hp : p.Valid) (hwidth : width ≤ p.width) (hheight : height ≤ p.height)
    {y : Nat} (hy : y < height) :
    ((p.rowBytes y).take (width * pixelBytes)).length = width * pixelBytes := by
  rw [List.length_take, (hp.hasRow (Nat.lt_of_lt_of_le hy hheight)).length_rowBytes,
    Nat.min_eq_left (Nat.mul_le_mul_right _ hwidth)]

theorem crop_valid (hp : p.Valid) (hwidth : width ≤ p.width) (hheight : height ≤ p.height) :
    (p.crop width height).Valid := by
  have hsize : (p.crop width height).bytes.size = width * height * pixelBytes := by
    unfold crop
    rw [List.size_toArray,
      length_flatMap_range fun y hy => length_take_rowBytes hp hwidth hheight hy,
      Nat.mul_comm, Nat.mul_right_comm]
  refine ⟨hsize, ?_⟩
  have hle : width * height * pixelBytes ≤ p.bytes.size := by
    rw [hp.size_eq]
    exact Nat.mul_le_mul_right _ (Nat.mul_le_mul hwidth hheight)
  rw [hsize]
  exact Nat.le_trans hle hp.size_le

theorem rowBytes_crop (hp : p.Valid) (hwidth : width ≤ p.width) (hheight : height ≤ p.height)
    {y : Nat} (hy : y < height) :
    (p.crop width height).rowBytes y = (p.rowBytes y).take (width * pixelBytes) := by
  have hvalid := crop_valid hp hwidth hheight
  have hrows : (List.range height).flatMap (p.crop width height).rowBytes =
      (List.range height).flatMap fun y => (p.rowBytes y).take (width * pixelBytes) :=
    (toList_bytes hvalid.size_eq).symm
  exact flatMap_range_inj (fun y hy => (hvalid.hasRow hy).length_rowBytes)
    (fun y hy => length_take_rowBytes hp hwidth hheight hy) hrows y hy

/-- The part shows what the pixmap shows there. -/
theorem pixel?_crop (hp : p.Valid) (hwidth : width ≤ p.width) (hheight : height ≤ p.height)
    {x y : Nat} (hx : x < width) (hy : y < height) :
    (p.crop width height).pixel? x y = p.pixel? x y := by
  have hrow := (crop_valid hp hwidth hheight).hasRow hy
  refine pixel?_congr ⟨fun _ => ⟨by omega, by omega⟩, fun _ => ⟨hx, hy⟩⟩ fun _ _ i hi => ?_
  have hbyte : x * pixelBytes + i < width * pixelBytes := by
    unfold pixelBytes at hi ⊢
    omega
  rw [← hrow.getElem?_rowBytes hx hi, rowBytes_crop hp hwidth hheight hy, List.getElem?_take,
    if_pos hbyte, (hp.hasRow (by omega)).getElem?_rowBytes (by omega) hi]

/-- The pixels of a part read as those of the pixmap. -/
theorem pixel_crop (hp : p.Valid) (hwidth : width ≤ p.width) (hheight : height ≤ p.height)
    {x y : Nat} (hx : x < width) (hy : y < height) :
    (p.crop width height).pixel x y = p.pixel x y := by
  have hx' : x < p.width := Nat.lt_of_lt_of_le hx hwidth
  have hy' : y < p.height := Nat.lt_of_lt_of_le hy hheight
  obtain ⟨c, hc⟩ := (hp.hasRow hy').exists_pixel? hx' hy'
  rw [((hp.hasRow hy').pixel_eq_ok c).mpr hc,
    ((crop_valid hp hwidth hheight).hasRow hy).pixel_eq_ok,
    pixel?_crop hp hwidth hheight hx hy, hc]

/-- A part of a pixmap of one color is a pixmap of that color. -/
theorem create_crop {c : Color} (h : create p.width p.height c = .ok p) (hwidth : width ≤ p.width)
    (hheight : height ≤ p.height) : create width height c = .ok (p.crop width height) := by
  have hp := (valid_of_create h).1
  have hpart := crop_valid hp hwidth hheight
  have hroom : pixelBytes * (width * height) ≤ Size.bytesMax := by
    rw [Nat.mul_comm]
    exact Nat.le_trans (Nat.le_of_eq hpart.size_eq.symm) hpart.size_le
  obtain ⟨q, hq⟩ : ∃ q, create width height c = .ok q :=
    ⟨_, (create_eq_ok width height c _).mpr ⟨hroom, rfl⟩⟩
  obtain ⟨hqvalid, hqwidth, hqheight⟩ := valid_of_create hq
  have hsame : q = p.crop width height := by
    refine hqvalid.ext hpart hqwidth hqheight fun x hx y hy => ?_
    rw [hqwidth] at hx
    rw [hqheight] at hy
    rw [pixel?_create hq hx hy, pixel?_crop hp hwidth hheight hx hy,
      pixel?_create h (Nat.lt_of_lt_of_le hx hwidth) (Nat.lt_of_lt_of_le hy hheight)]
  rw [hq, hsame]

end Crop

/-! ## Drawing and cropping -/

structure Croppable (width height : Nat) (p : Pixmap) : Prop where
  valid : p.Valid
  width_le : width ≤ p.width
  height_le : height ≤ p.height

/-- It makes no difference whether a color falls on a pixmap before or after it is cropped. -/
theorem blend_commutes (width height : Nat) (x y : Int) (c : Color) :
    Step.CommutesWith (crop width height) (Croppable width height) (blend x y c) := by
  rintro p ⟨hp, hwidth, hheight⟩
  have hpart := crop_valid hp hwidth hheight
  obtain ⟨p', hrun, hshape⟩ := exists_blend hp x y c
  obtain ⟨q, hrunPart, hshapePart⟩ := exists_blend hpart x y c
  have hp' := hshape.valid hp
  have hwidth' : width ≤ p'.width := by rwa [hshape.width_eq]
  have hheight' : height ≤ p'.height := by rwa [hshape.height_eq]
  rw [Step.after_of_ok hrun, hrun, hrunPart]
  refine ⟨⟨hp', hwidth', hheight'⟩, ?_⟩
  have hsame : q = p'.crop width height := by
    apply (hshapePart.valid hpart).ext (crop_valid hp' hwidth' hheight') hshapePart.width_eq
      hshapePart.height_eq
    intro i hi j hj
    have hi : i < width := Nat.lt_of_lt_of_eq hi hshapePart.width_eq
    have hj : j < height := Nat.lt_of_lt_of_eq hj hshapePart.height_eq
    -- The color falls on the same place in both, however long their rows are.
    rw [pixel?_blend hpart hrunPart, pixel?_crop hp hwidth hheight hi hj,
      pixel?_crop hp' hwidth' hheight' hi hj, pixel?_blend hp hrun]
  rw [hsame]
  rfl

/-- An image or a text, and where it is drawn. -/
inductive Drawing where
  | picture (image : Pixmap) (x y : Int)
  | writing (font : Font) (text : List Char) (x y : Int) (color : Color)

def Drawing.step : Drawing → Step Pixmap Unit
  | .picture image x y => image.draw x y
  | .writing font text x y color => font.draw text x y color

theorem Drawing.commutes (width height : Nat) (drawing : Drawing) :
    Step.CommutesWith (crop width height) (Croppable width height) drawing.step := by
  have hlaw := Step.CommutesWith.compositional (crop width height) (Croppable width height)
  cases drawing with
  | picture image x y =>
    exact draw_of_blend hlaw (fun _ _ c _ x y => blend_commutes width height x y c) x y
  | writing font text x y color =>
    exact font.draw_of_blend hlaw (fun _ x y => blend_commutes width height x y _) text x y

/-- An image whose edges lie at coordinates, or a text that can be drawn at all: the empty pixmap
tells, since the other ones make no difference to it. -/
def Drawing.Fits : Drawing → Prop
  | .picture image x y => image.Placeable x y
  | .writing font text x y color =>
      ∃ p, (font.draw text x y color).run ⟨0, 0, #[]⟩ = .ok () p

/-- Such a drawing succeeds on every valid pixmap. -/
theorem Drawing.Fits.exists_step {drawing : Drawing} (hfits : drawing.Fits) {p : Pixmap}
    (hp : p.Valid) : ∃ p', drawing.step.run p = .ok () p' ∧ p'.Valid := by
  cases drawing with
  | picture image x y =>
    obtain ⟨p', hrun, hover⟩ := exists_draw hfits hp
    exact ⟨p', hrun, hover.shape.valid hp⟩
  | writing font text x y color =>
    -- The empty pixmap is a part of any other one.
    obtain ⟨q, hempty⟩ := hfits
    obtain ⟨hafter, hpart⟩ := (Drawing.writing font text x y color).commutes 0 0 p
      ⟨hp, Nat.zero_le _, Nat.zero_le _⟩
    have hsame : Step.onState (crop 0 0) ((font.draw text x y color).run p) = .ok () q :=
      hpart.symm.trans hempty
    cases hrun : (font.draw text x y color).run p with
    | ok _ p' =>
      rw [Drawing.step, Step.after_of_ok hrun] at hafter
      exact ⟨p', hrun, hafter.valid⟩
    | error e p' =>
      rw [hrun] at hsame
      cases hsame

/-- Drawings that fit leave the same on a part of a pixmap as on the whole. -/
theorem exists_forM_step {p : Pixmap} {width height : Nat} (hp : Croppable width height p)
    {drawings : List Drawing} (hfits : ∀ drawing ∈ drawings, drawing.Fits) :
    ∃ p', (drawings.forM Drawing.step).run p = .ok () p' ∧
      (drawings.forM Drawing.step).run (p.crop width height) = .ok () (p'.crop width height) := by
  have hlaw := Step.CommutesWith.compositional (crop width height) (Croppable width height)
  obtain ⟨_, hpart⟩ := hlaw.forM drawings (Drawing.commutes width height) p hp
  obtain ⟨p', hdrawn, _⟩ := Step.exists_forM_of_mem Valid
    (fun drawing hmem q hq => (hfits drawing hmem).exists_step hq) hp.valid
  refine ⟨p', hdrawn, ?_⟩
  rw [hpart, hdrawn]
  rfl

/-- The upper left part of a pixmap shows what the pixmap shows there, and any images and texts
drawn on it leave the same part of what they leave of the whole pixmap, or the same fault where
drawing them is one. It is none for drawings that fit. -/
theorem draw_crop {p : Pixmap} {width height : Nat} (hp : p.Valid) (hwidth : width ≤ p.width)
    (hheight : height ≤ p.height) (drawings : List Drawing) :
    ((p.crop width height).Valid ∧
      ∀ x < width, ∀ y < height, (p.crop width height).pixel x y = p.pixel x y) ∧
    (drawings.forM Drawing.step).run (p.crop width height) =
      Step.onState (crop width height) ((drawings.forM Drawing.step).run p) ∧
    ((∀ drawing ∈ drawings, drawing.Fits) → ∃ p', (drawings.forM Drawing.step).run p = .ok () p' ∧
      (drawings.forM Drawing.step).run (p.crop width height) = .ok () (p'.crop width height)) := by
  have hcroppable : Croppable width height p := ⟨hp, hwidth, hheight⟩
  have hlaw := Step.CommutesWith.compositional (crop width height) (Croppable width height)
  obtain ⟨_, hrun⟩ := hlaw.forM drawings (Drawing.commutes width height) p hcroppable
  exact ⟨⟨crop_valid hp hwidth hheight, fun x hx y hy => pixel_crop hp hwidth hheight hx hy⟩, hrun,
    exists_forM_step hcroppable⟩

/-- A text that can be drawn on the empty pixmap can be drawn at all. -/
theorem Drawing.fits_writing {font : Font} {text : List Char} {x y : Int} {color : Color}
    (h : (font.draw text x y color).result ⟨0, 0, #[]⟩ = .ok ((), ⟨0, 0, #[]⟩)) :
    (Drawing.writing font text x y color).Fits :=
  ⟨_, (Step.result_eq_ok ..).mp h⟩

/-- An image that hangs over the left edge, and over it the ink of a glyph that covers the pixels in
part, on a pixmap and on its left half. -/
theorem draw_crop_hanging :
    let drawings : List Drawing := [.picture ⟨2, 1, #[1, 2, 3, 255, 4, 5, 6, 255]⟩ (-1) 0,
      .writing ⟨.banner, 12⟩ ['O'] 0 (-1) ⟨201, 101, 1, 255⟩]
    (⟨2, 1, #[9, 9, 9, 255, 7, 7, 7, 255]⟩ : Pixmap).Valid ∧
    (drawings.forM Drawing.step).run ⟨2, 1, #[9, 9, 9, 255, 7, 7, 7, 255]⟩ =
      .ok () ⟨2, 1, #[145, 74, 2, 255, 47, 26, 6, 255]⟩ ∧
    (drawings.forM Drawing.step).run ⟨1, 1, #[9, 9, 9, 255]⟩ =
      .ok () ⟨1, 1, #[145, 74, 2, 255]⟩ := by
  intro drawings
  have hp : (⟨2, 1, #[9, 9, 9, 255, 7, 7, 7, 255]⟩ : Pixmap).Valid := ⟨by decide, by decide⟩
  have himage : (⟨2, 1, #[1, 2, 3, 255, 4, 5, 6, 255]⟩ : Pixmap).Valid :=
    ⟨by decide, by decide⟩
  have hfits : ∀ drawing ∈ drawings, drawing.Fits := by
    intro drawing hmem
    rcases List.mem_cons.mp hmem with rfl | hmem
    · exact ⟨himage, by decide, by decide, by decide, by decide⟩
    · obtain rfl := List.mem_singleton.mp hmem
      exact Drawing.fits_writing (by decide +kernel)
  have hwhole : (drawings.forM Drawing.step).run ⟨2, 1, #[9, 9, 9, 255, 7, 7, 7, 255]⟩ =
      .ok () ⟨2, 1, #[145, 74, 2, 255, 47, 26, 6, 255]⟩ :=
    (Step.result_eq_ok ..).mp (by decide +kernel)
  obtain ⟨_, _, hdraw⟩ := draw_crop hp (by decide : 1 ≤ 2) (by decide : 1 ≤ 1) drawings
  obtain ⟨p', hrun, hpart⟩ := hdraw hfits
  obtain ⟨-, rfl⟩ := EStateM.Result.ok.inj (hrun.symm.trans hwhole)
  exact ⟨hp, hrun, hpart⟩

end TwinScreen.Pixmap
