import TwinScreen.Screen.Drawing
import TwinScreen.Proofs.Typesetter

/-!
# What painting a screen does

A screen is painted by compositing colors of the icon and the text color, the latter with any alpha.
What each of these keeps, wherever it falls, the whole painting keeps (`paint_preserves`).
-/
namespace TwinScreen

theorem Pixmap.exists_screen (fill : Color) : ∃ p, Pixmap.screen fill = .ok p :=
  ⟨_, (create_eq_ok ..).mpr ⟨by decide, rfl⟩⟩

namespace Screen

variable {screen : Screen} {text : List Char} {icon : Pixmap} {fonts : Fonts} {settings : Settings}
  {Q : Pixmap → Prop} {color : Color}

/-! ## A finished screen -/

/-- A finished screen is what painting leaves of the background. -/
theorem draw_eq_ok (p : Pixmap) :
    draw screen text icon fonts settings = .ok p ↔
      ∃ blank, Pixmap.screen (settings.schemes.of screen).background = .ok blank ∧
        (paint screen text icon fonts settings).run blank = .ok () p := by
  unfold draw
  simp only [except_bind_eq_ok, Prod.exists, Step.result_eq_ok]
  constructor
  · rintro ⟨blank, hblank, _, p', hpaint, hp⟩
    obtain rfl := Except.ok.inj hp
    exact ⟨blank, hblank, hpaint⟩
  · rintro ⟨blank, hblank, hpaint⟩
    exact ⟨blank, hblank, (), p, hpaint, rfl⟩

theorem draw_eq_error {blank p : Pixmap} {e : Fault}
    (hblank : Pixmap.screen (settings.schemes.of screen).background = .ok blank)
    (h : (paint screen text icon fonts settings).run blank = .error e p) :
    draw screen text icon fonts settings = .error e := by
  unfold draw
  rw [hblank, except_ok_bind, Step.result_of_error h]
  rfl

/-! ## What is kept -/

theorem drawIcon_preserves
    (hicon : ∀ i j c, icon.pixel i j = .ok c → ∀ x y, Step.Preserves Q (Pixmap.blend x y c))
    (corner : Corner) (margin : Int) : Step.Preserves Q (icon.drawIcon corner margin) := by
  refine Step.Preserves.get.bind fun target => .check _ _ (.check _ _ ?_)
  refine (Step.Preserves.lift _).bind fun x => (Step.Preserves.lift _).bind fun y => ?_
  exact Pixmap.draw_of_blend (Step.Preserves.compositional Q) hicon x y

theorem drawTitle_preserves
    (htext : ∀ alpha x y, Step.Preserves Q (Pixmap.blend x y (color.withAlpha alpha)))
    (title : List Char) (font : Font) (margin : Int) :
    Step.Preserves Q (drawTitle title font margin color) :=
  (Step.Preserves.lift _).bind fun _ => (Step.Preserves.lift _).bind fun left =>
    font.draw_preserves htext title left margin

theorem drawThanks_preserves
    (htext : ∀ alpha x y, Step.Preserves Q (Pixmap.blend x y (color.withAlpha alpha)))
    (font : Font) (margin : Int) : Step.Preserves Q (drawThanks font margin color) :=
  (Step.Preserves.lift _).bind fun _ => (Step.Preserves.lift _).bind fun left =>
    (Step.Preserves.lift _).bind fun top => font.draw_preserves htext _ left top

/-- Painting keeps what compositing keeps, of the colors of the icon and of the text color with any
alpha. -/
theorem paint_preserves
    (hicon : ∀ i j c, icon.pixel i j = .ok c → ∀ x y, Step.Preserves Q (Pixmap.blend x y c))
    (htext : ∀ alpha x y, Step.Preserves Q
      (Pixmap.blend x y ((settings.schemes.of screen).foreground.withAlpha alpha))) :
    Step.Preserves Q (paint screen text icon fonts settings) := by
  unfold paint
  refine (drawIcon_preserves hicon _ _).bind fun _ => ?_
  refine (drawTitle_preserves htext _ _ _).bind fun _ => ?_
  refine (Step.Preserves.lift _).bind fun wrapped => (Step.Preserves.lift _).bind fun size => ?_
  refine (Step.Preserves.lift _).bind fun top => ?_
  refine (fonts.body.draw_preserves htext wrapped _ top).bind fun _ => ?_
  exact .ite _ (drawThanks_preserves htext _ _) (.pure ())

theorem paint_sameShape (screen : Screen) (text : List Char) (icon : Pixmap) (fonts : Fonts)
    (settings : Settings) (p : Pixmap) :
    Step.Preserves p.SameShape (paint screen text icon fonts settings) :=
  paint_preserves (fun _ _ c _ x y => Pixmap.blend_preserves p x y c)
    fun _ x y => Pixmap.blend_preserves p x y _

/-- A drawn screen has the size of a screen, whatever is drawn on it. -/
theorem valid_of_draw {p : Pixmap} (h : draw screen text icon fonts settings = .ok p) :
    p.Valid ∧ p.width = screenWidth ∧ p.height = screenHeight := by
  obtain ⟨blank, hblank, hpaint⟩ := (draw_eq_ok p).mp h
  obtain ⟨hvalid, hwidth, hheight⟩ := Pixmap.valid_of_create hblank
  have hshape := paint_sameShape screen text icon fonts settings blank blank (.refl blank)
  rw [Step.after_of_ok hpaint] at hshape
  exact ⟨hshape.valid hvalid, hshape.width_eq.trans hwidth, hshape.height_eq.trans hheight⟩

/-! ## The top screen -/

section Top

variable {wrapped : List Char} {p p₁ p₂ : Pixmap} {size : TextSize} {left : Int}

/-- Once the icon and the title of the top screen have been drawn, what is left of the painting is
to find a place for the body text and to draw it there. -/
theorem run_paint_top (settings : Settings)
    (hicon : (icon.drawIcon top.iconCorner settings.sizes.marginOffset).run p = .ok () p₁)
    (hsize : fonts.title.measure top.title.toList = .ok size)
    (hleft : titleLeft size = .ok left)
    (htitle : (fonts.title.draw top.title.toList left settings.sizes.marginOffset
      (settings.schemes.of top).foreground).run p₁ = .ok () p₂)
    (hwrap : Text.wrap settings.wrapping.measure text = .ok wrapped) :
    (paint top text icon fonts settings).run p =
      (liftM (bodyTop settings.sizes.marginOffset size) >>= fun y =>
        fonts.body.draw wrapped settings.sizes.marginOffset y
          (settings.schemes.of top).foreground : Step Pixmap Unit).run p₂ := by
  have hdrawTitle : (drawTitle top.title.toList fonts.title settings.sizes.marginOffset
      (settings.schemes.of top).foreground).run p₁ = .ok () p₂ := by
    unfold drawTitle
    rw [hsize, Step.run_bind_of_ok (Step.run_lift_ok ..), hleft,
      Step.run_bind_of_ok (Step.run_lift_ok ..), htitle]
  unfold paint
  dsimp only
  rw [Step.run_bind_of_ok hicon, Step.run_bind_of_ok hdrawTitle, hwrap,
    Step.run_bind_of_ok (Step.run_lift_ok ..), hsize, Step.run_bind_of_ok (Step.run_lift_ok ..),
    if_neg (by decide)]
  simp only [bind_pure_unit]

end Top

end Screen

end TwinScreen
