import TwinScreen.Proofs.Color.Blending
import TwinScreen.Proofs.Screen.Parts

/-!
# Colors of a screen

All colors of a finished screen stay between those that it is painted with: its background, its text
color and the colors of its icon. No pixel is less opaque than the background
(`draw_colors_inRange`).
-/
namespace TwinScreen.Screen

/-- A color that a screen is painted with. -/
inductive PaintedWith (scheme : Scheme) (icon : Pixmap) (c : Color) : Prop where
  | background (h : c = scheme.background)
  | text (h : c = scheme.foreground)
  | icon (x y : Nat) (h : icon.pixel x y = .ok c)

/-- What holds of the colors of a screen with this scheme and icon. -/
structure Admits (scheme : Scheme) (icon : Pixmap) (c : Color) : Prop where
  alpha : scheme.background.alpha ≤ c.alpha
  channels : c.InRange (PaintedWith scheme icon)

variable {scheme : Scheme} {icon : Pixmap}

theorem admits_background : Admits scheme icon scheme.background :=
  ⟨UInt8.le_refl _, Color.inRange_of_mem (.background rfl)⟩

/-- Compositing a color of the palette keeps what holds of the colors of a screen. -/
theorem Admits.onto {source dest : Color} (hsource : source.InRange (PaintedWith scheme icon))
    (hdest : Admits scheme icon dest) : Admits scheme icon (source.onto dest) :=
  ⟨UInt8.le_trans hdest.alpha (Color.alpha_le_onto source dest), hsource.onto hdest.channels⟩

/-- Whatever is painted, all colors stay admitted. -/
theorem paint_admits (screen : Screen) (text : List Char) (icon : Pixmap) (fonts : Fonts)
    (settings : Settings) :
    Step.Preserves (Pixmap.Painted (Admits (settings.schemes.of screen) icon))
      (paint screen text icon fonts settings) := by
  refine paint_preserves (fun i j c hc x y => ?_) (fun alpha x y => ?_)
  · exact Pixmap.blend_painted (fun d => .onto (Color.inRange_of_mem (.icon i j hc))) x y
  · have htext : (settings.schemes.of screen).foreground.InRange
        (PaintedWith (settings.schemes.of screen) icon) := Color.inRange_of_mem (.text rfl)
    exact Pixmap.blend_painted (fun d => .onto (htext.withAlpha alpha)) x y

/-- Every pixel of a finished screen is at least as opaque as the background, and each of its
channels lies between those of two colors that the screen is painted with. -/
theorem draw_colors_inRange {screen : Screen} {text : List Char} {icon : Pixmap} {fonts : Fonts}
    {settings : Settings} {p : Pixmap} (h : draw screen text icon fonts settings = .ok p) :
    p.width = screenWidth ∧ p.height = screenHeight ∧
      ∀ x < screenWidth, ∀ y < screenHeight, ∃ c, p.pixel x y = .ok c ∧
        (settings.schemes.of screen).background.alpha ≤ c.alpha ∧
        ((settings.schemes.of screen).background.alpha = 255 → c.alpha = 255) ∧
        ∀ channel ∈ Color.channels, ∃ lo hi,
          PaintedWith (settings.schemes.of screen) icon lo ∧
          PaintedWith (settings.schemes.of screen) icon hi ∧
          channel lo ≤ channel c ∧ channel c ≤ channel hi := by
  obtain ⟨blank, hblank, hpaint⟩ := (draw_eq_ok p).mp h
  have hpainted := paint_admits screen text icon fonts settings blank
    (Pixmap.painted_of_create hblank admits_background)
  rw [Step.after_of_ok hpaint] at hpainted
  obtain ⟨_, hwidth, hheight⟩ := valid_of_draw h
  refine ⟨hwidth, hheight, fun x hx y hy => ?_⟩
  rw [← hwidth] at hx
  rw [← hheight] at hy
  have hrow := hpainted.valid.hasRow hy
  obtain ⟨c, hc⟩ := hrow.exists_pixel? hx hy
  have hadmits := hpainted.colors x y c hc
  refine ⟨c, (hrow.pixel_eq_ok c).mpr hc, hadmits.alpha, fun hfull => ?_, hadmits.channels⟩
  have hge := hadmits.alpha
  rw [hfull] at hge
  exact UInt8.le_antisymm (UInt8.le_iff_toNat_le.mpr (Nat.lt_succ_iff.mp c.alpha.toNat_lt)) hge

/-- The icon has a pixel that lets the background through, and the first letter of the title covers
a pixel and half of the next one. -/
theorem draw_colors_inRange_halfway :
    let icon : Pixmap := ⟨2, 1, #[0xFF, 0, 0, 0xFF, 0, 0xFF, 0, 0x80]⟩
    let fonts : Fonts := ⟨⟨.banner, 14⟩, ⟨.banner, 12⟩⟩
    ∃ p, draw top ['O'] icon fonts .standard = .ok p ∧
      p.pixel 0 8 = .ok Scheme.top.foreground ∧ p.pixel 1 8 = .ok ⟨247, 145, 150, 255⟩ ∧
      p.width = screenWidth ∧ p.height = screenHeight ∧
      ∀ x < screenWidth, ∀ y < screenHeight, ∃ c, p.pixel x y = .ok c ∧ c.alpha = 255 ∧
        ∀ channel ∈ Color.channels, ∃ lo hi,
          PaintedWith .top icon lo ∧ PaintedWith .top icon hi ∧
          channel lo ≤ channel c ∧ channel c ≤ channel hi := by
  intro icon fonts
  have hsize : fonts.title.measure top.title.toList = .ok ⟨255, 14⟩ := by decide +kernel
  have hwrap : Text.wrap Wrapping.standard.measure ['O'] = .ok ['O'] := by decide +kernel
  have hleft : titleLeft ⟨255, 14⟩ = .ok 0 := by decide
  have htop : bodyTop Sizes.standard.marginOffset ⟨255, 14⟩ = .ok 30 := by decide
  have hicon : (Pixmap.Drawing.picture icon 246 183).Fits :=
    ⟨⟨rfl, by decide⟩, by decide, by decide, by decide, by decide⟩
  have htitle : (Pixmap.Drawing.writing fonts.title top.title.toList 0 8
      Scheme.top.foreground).Fits := Pixmap.Drawing.fits_writing (by decide +kernel)
  have hbody : (Pixmap.Drawing.writing fonts.body ['O'] 8 30 Scheme.top.foreground).Fits :=
    Pixmap.Drawing.fits_writing (by decide +kernel)
  have hfits : ∀ drawing ∈ topDrawings icon fonts .standard 0 30 ['O'], drawing.Fits :=
    List.forall_mem_cons.mpr ⟨hicon, List.forall_mem_cons.mpr ⟨htitle,
      List.forall_mem_singleton.mpr hbody⟩⟩
  have hcolumns : 2 ≤ screenWidth := by decide
  have hrows : 9 ≤ screenHeight := by decide
  obtain ⟨p, hdraw, hpart⟩ := exists_draw_top .standard (by decide) (by decide) hsize hleft hwrap
    htop hfits hcolumns hrows
  obtain ⟨hwidth, hheight, hpixels⟩ := draw_colors_inRange hdraw
  have hinside : ∀ x < 2, ∀ y < 9, (p.crop 2 9).pixel x y = p.pixel x y := fun x hx y hy =>
    Pixmap.pixel_crop (valid_of_draw hdraw).1 (hwidth ▸ hcolumns) (hheight ▸ hrows) hx hy
  -- The letter lies in a small part of the screen, where the drawing can be computed.
  have hink : (do
      let part ← drawTopPart icon fonts .standard 0 30 ['O'] 2 9
      return (← part.pixel 0 8, ← part.pixel 1 8)) =
        (.ok (Scheme.top.foreground, ⟨247, 145, 150, 255⟩) : Except Fault (Color × Color)) := by
    decide +kernel
  rw [hpart, except_ok_bind, hinside 0 (by decide) 8 (by decide),
    hinside 1 (by decide) 8 (by decide)] at hink
  obtain ⟨c, hc, hink⟩ := (except_bind_eq_ok ..).mp hink
  obtain ⟨d, hd, hink⟩ := (except_bind_eq_ok ..).mp hink
  obtain ⟨rfl, rfl⟩ := Prod.mk.inj (Except.ok.inj hink)
  refine ⟨p, hdraw, hc, hd, hwidth, hheight, fun x hx y hy => ?_⟩
  obtain ⟨c, hc, _, hfull, hchannels⟩ := hpixels x hx y hy
  exact ⟨c, hc, hfull rfl, hchannels⟩

end TwinScreen.Screen
