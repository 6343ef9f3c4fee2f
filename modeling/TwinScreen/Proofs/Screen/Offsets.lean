import TwinScreen.Proofs.Screen.Icons
import TwinScreen.Proofs.Screen.Painting

/-!
# Offsets of drawing

The offsets at which icon, title and texts are drawn are coordinates computed from sizes of texts.
Those of the icon never leave the range of coordinates. The others leave it for the sizes of a few
narrow bands at `2 ^ 31`, where a size turns into a negative coordinate (`offsets_complete_iff`).
-/
namespace TwinScreen

/-! ## Sizes of texts -/

/-- Both dimensions of a text are dimensions of windows and texts. -/
def TextSize.InRange (size : TextSize) : Prop :=
  size.width < Extent.bound ∧ size.height < Extent.bound

theorem Typesetter.wholePixels_lt (x : Float32) : wholePixels x < Extent.bound := by
  unfold wholePixels
  have hbyte := x.toUInt32.toNat_lt
  unfold Extent.bound
  dsimp only
  split
  · rename_i h
    have hsmall := UInt32.lt_iff_toNat_lt.mp h.1
    have hlimit : (0x800000 : UInt32).toNat = 0x800000 := rfl
    omega
  · omega

/-- Fonts measure texts in numbers of 32 bits. -/
theorem Font.measure_inRange {f : Font} {text : List Char} {size : TextSize}
    (h : f.measure text = .ok size) : size.InRange := by
  unfold measure at h
  split at h
  · obtain rfl := Except.ok.inj h
    exact ⟨by decide, by decide⟩
  · rw [except_bind_pure] at h
    obtain ⟨t, _, rfl⟩ := except_map_eq_ok.mp h
    exact ⟨Typesetter.wholePixels_lt _, Typesetter.wholePixels_lt _⟩

/-! ## Offsets of icons -/

/-- On a screen, every margin leaves room for an icon smaller than the screen. -/
theorem Pixmap.exists_drawIcon_screen {icon target : Pixmap} (hicon : icon.Valid)
    (hwidth : icon.width < screenWidth) (hheight : icon.height < screenHeight)
    (htarget : target.Valid) (htwidth : target.width = screenWidth)
    (htheight : target.height = screenHeight) (corner : Corner) (sizes : Sizes) :
    ∃ target', (icon.drawIcon corner sizes.marginOffset).run target = .ok () target' := by
  obtain ⟨hmargin, hmargin'⟩ := sizes.marginOffset_range
  have hroom : screenWidth = 256 ∧ screenHeight = 192 := ⟨rfl, rfl⟩
  rw [← htwidth] at hwidth
  rw [← htheight] at hheight
  obtain ⟨target', hdrawn, _⟩ := exists_drawIcon hicon htarget hwidth hheight hmargin (by omega)
    (by omega) corner
  exact ⟨target', hdrawn⟩

/-! ## Offsets of texts -/

namespace Screen

variable {margin : Int} {size : TextSize}

/-- A title can be centered unless its width turns into one of the lowest coordinates. -/
theorem titleLeft_isOk_iff (hsize : size.InRange) :
    (∃ x, titleLeft size = .ok x) ↔
      ¬ (0x80000000 ≤ size.width ∧ size.width ≤ 0x80000000 + screenWidth) := by
  have hfree : (∃ x, titleLeft size = .ok x) ↔
      Offset.Fits (screenWidth - Offset.ofSize size.width) :=
    Offset.fit_bind_isOk_iff.trans (and_iff_left ⟨_, rfl⟩)
  rw [hfree]
  unfold Offset.Fits screenWidth
  rcases Offset.ofSize_cases hsize.1 with ⟨_, h⟩ | ⟨_, _, h⟩ <;> omega

/-- There is a place below a title unless the margins take it beyond the last coordinate. -/
theorem bodyTop_isOk_iff (hmargin : 0 ≤ margin ∧ margin ≤ screenWidth) (hsize : size.InRange) :
    (∃ y, bodyTop margin size = .ok y) ↔
      ¬ (size.height < 0x80000000 ∧ 0x80000000 ≤ size.height + 2 * margin) := by
  -- A height from `2 ^ 31` on is a negative coordinate, to which any margin may be added.
  unfold bodyTop Offset.mul Offset.add
  rw [Offset.fit_bind_isOk_iff, Offset.fit_isOk_iff]
  unfold Offset.Fits
  unfold screenWidth at hmargin
  rcases Offset.ofSize_cases hsize.2 with ⟨_, h⟩ | ⟨_, _, h⟩ <;> omega

theorem thanksLeft_isOk_iff (hmargin : 0 ≤ margin ∧ margin ≤ screenWidth) (hsize : size.InRange) :
    (∃ x, thanksLeft margin size = .ok x) ↔
      ¬ (0x80000000 ≤ size.width ∧ size.width ≤ 0x80000000 + screenWidth) := by
  unfold thanksLeft Offset.sub
  rw [Offset.fit_bind_isOk_iff, Offset.fit_isOk_iff]
  unfold Offset.Fits
  unfold screenWidth at hmargin ⊢
  rcases Offset.ofSize_cases hsize.1 with ⟨_, h⟩ | ⟨_, _, h⟩ <;> omega

theorem thanksTop_isOk_iff (hmargin : 0 ≤ margin ∧ margin ≤ screenWidth) (hsize : size.InRange) :
    (∃ y, thanksTop margin size = .ok y) ↔
      ¬ (0x80000000 ≤ size.height ∧ size.height ≤ 0x80000000 + screenHeight ∨
        size.height < 0x80000000 ∧ 0x80000000 + screenHeight < size.height + margin) := by
  unfold thanksTop Offset.sub
  rw [Offset.fit_bind_isOk_iff, Offset.fit_isOk_iff]
  unfold Offset.Fits screenHeight
  unfold screenWidth at hmargin
  rcases Offset.ofSize_cases hsize.2 with ⟨_, h⟩ | ⟨_, _, h⟩ <;> omega

/-- All offsets of a screen are coordinates, whatever the margin, but for texts whose size lies in
one of these bands. The sizes that fonts measure are in range. -/
theorem offsets_complete_iff (sizes : Sizes) {title line : TextSize} (htitle : title.InRange)
    (hline : line.InRange) :
    ((∃ x, titleLeft title = .ok x) ↔
      ¬ (0x80000000 ≤ title.width ∧ title.width ≤ 0x80000000 + screenWidth)) ∧
    ((∃ y, bodyTop sizes.marginOffset title = .ok y) ↔
      ¬ (title.height < 0x80000000 ∧ 0x80000000 ≤ title.height + 2 * sizes.marginOffset)) ∧
    ((∃ x, thanksLeft sizes.marginOffset line = .ok x) ↔
      ¬ (0x80000000 ≤ line.width ∧ line.width ≤ 0x80000000 + screenWidth)) ∧
    ((∃ y, thanksTop sizes.marginOffset line = .ok y) ↔
      ¬ (0x80000000 ≤ line.height ∧ line.height ≤ 0x80000000 + screenHeight ∨
        line.height < 0x80000000 ∧
          0x80000000 + screenHeight < line.height + sizes.marginOffset)) ∧
    (∀ (icon target : Pixmap) (corner : Corner), icon.Valid → target.Valid →
      target.width = screenWidth → target.height = screenHeight →
      icon.width < screenWidth → icon.height < screenHeight →
      ∃ target', (icon.drawIcon corner sizes.marginOffset).run target = .ok () target') ∧
    ∀ (f : Font) (text : List Char) (size : TextSize), f.measure text = .ok size →
      size.InRange := by
  have hmargin := sizes.marginOffset_range
  refine ⟨titleLeft_isOk_iff htitle, bodyTop_isOk_iff hmargin htitle,
    thanksLeft_isOk_iff hmargin hline, thanksTop_isOk_iff hmargin hline, ?_,
    fun f text size h => Font.measure_inRange h⟩
  intro icon target corner hicon htarget htwidth htheight hwidth hheight
  exact Pixmap.exists_drawIcon_screen hicon hwidth hheight htarget htwidth htheight corner sizes

/-- The widest margin, a title as high as a title can be, and a closing line beyond the bands. -/
theorem offsets_complete_widest :
    (∃ y, bodyTop (Sizes.marginOffset ⟨14, 12, 0xFFFFFFFF⟩) ⟨0, 0x7FFFFDFF⟩ = .ok y) ∧
      ∃ y, thanksTop (Sizes.marginOffset ⟨14, 12, 0xFFFFFFFF⟩) ⟨0, 0xFFFFFFFF⟩ = .ok y := by
  have htitle : TextSize.InRange ⟨0, 0x7FFFFDFF⟩ := ⟨by decide, by decide⟩
  have hline : TextSize.InRange ⟨0, 0xFFFFFFFF⟩ := ⟨by decide, by decide⟩
  obtain ⟨-, htop, -, hbottom, -⟩ := offsets_complete_iff ⟨14, 12, 0xFFFFFFFF⟩ htitle hline
  exact ⟨htop.mpr (by decide), hbottom.mpr (by decide)⟩

/-- A title just below `2 ^ 31` pixels high leaves no place for the body text, so drawing the screen
is a fault. -/
theorem draw_overflows_below_title :
    let sizes : Sizes := ⟨2147483520, 12, 64⟩
    let fonts : Fonts := ⟨⟨.plain, 2147483520⟩, ⟨.plain, 12⟩⟩
    let icon : Pixmap := ⟨2, 1, #[0xFF, 0, 0, 0xFF, 0, 0xFF, 0, 0x80]⟩
    fonts.title.measure top.title.toList = .ok ⟨0, 2147483520⟩ ∧
      bodyTop sizes.marginOffset ⟨0, 2147483520⟩ = .error .overflow ∧
      draw top [] icon fonts ⟨sizes, .standard, .standard, .standard⟩ = .error .overflow := by
  intro sizes fonts icon
  have hsize : fonts.title.measure top.title.toList = .ok ⟨0, 2147483520⟩ := by decide +kernel
  have htop : bodyTop sizes.marginOffset ⟨0, 2147483520⟩ = .error .overflow := by decide
  refine ⟨hsize, htop, ?_⟩
  obtain ⟨blank, hblank⟩ := Pixmap.exists_screen Scheme.top.background
  obtain ⟨hvalid, hwidth, hheight⟩ := Pixmap.valid_of_create hblank
  have hsound : icon.Valid := ⟨rfl, by decide⟩
  obtain ⟨p, hicon⟩ := Pixmap.exists_drawIcon_screen hsound (by decide) (by decide) hvalid hwidth
    hheight top.iconCorner sizes
  have hwrap : Text.wrap Wrapping.standard.measure [] = .ok [] := by decide +kernel
  have htitle : (fonts.title.draw top.title.toList 128 sizes.marginOffset Scheme.top.foreground).run
      p = .ok () p :=
    Font.run_draw_of_outlineless Typeface.Tables.plain_outlineless rfl ..
  have hpaint := run_paint_top ⟨sizes, .standard, .standard, .standard⟩ hicon hsize rfl htitle hwrap
  rw [htop] at hpaint
  exact draw_eq_error hblank hpaint

end Screen

end TwinScreen
