import TwinScreen.Proofs.Pixmap.Cropping
import TwinScreen.Proofs.Screen.Offsets

/-!
# Parts of the top screen

What is drawn on the top screen is a list of drawings at places that do not depend on what they are
drawn on. So the upper left part of the finished screen can be had without the rest of it
(`exists_draw_top`).
-/
namespace TwinScreen.Screen

variable {icon : Pixmap}

/-- What is drawn on the top screen, one over the other: the icon, the title from column `left` on
and the wrapped text from row `y` on. -/
def topDrawings (icon : Pixmap) (fonts : Fonts) (settings : Settings) (left y : Int)
    (wrapped : List Char) : List Pixmap.Drawing :=
  let margin := settings.sizes.marginOffset
  let color := (settings.schemes.of top).foreground
  [.picture icon (screenWidth - icon.width - margin) (screenHeight - icon.height - margin),
    .writing fonts.title top.title.toList left margin color,
    .writing fonts.body wrapped margin y color]

/-- The same, drawn on only so much of the background. -/
def drawTopPart (icon : Pixmap) (fonts : Fonts) (settings : Settings) (left y : Int)
    (wrapped : List Char) (width height : Nat) : Except Fault Pixmap := do
  let part ← Pixmap.create width height (settings.schemes.of top).background
  let drawings := topDrawings icon fonts settings left y wrapped
  return (← (drawings.forM Pixmap.Drawing.step).result part).2

/-- If all that is drawn on the top screen fits, the screen is finished, and its upper left part is
what is drawn on that part alone. -/
theorem exists_draw_top {fonts : Fonts} (settings : Settings) {text wrapped : List Char}
    {size : TextSize} {left y : Int} (hwidth : icon.width < screenWidth)
    (hheight : icon.height < screenHeight)
    (hsize : fonts.title.measure top.title.toList = .ok size) (hleft : titleLeft size = .ok left)
    (hwrap : Text.wrap settings.wrapping.measure text = .ok wrapped)
    (htop : bodyTop settings.sizes.marginOffset size = .ok y)
    (hfits : ∀ drawing ∈ topDrawings icon fonts settings left y wrapped, drawing.Fits)
    {width height : Nat} (hcolumns : width ≤ screenWidth) (hrows : height ≤ screenHeight) :
    ∃ p, draw top text icon fonts settings = .ok p ∧
      drawTopPart icon fonts settings left y wrapped width height = .ok (p.crop width height) := by
  obtain ⟨blank, hblank⟩ := Pixmap.exists_screen (settings.schemes.of top).background
  obtain ⟨hvalid, hbwidth, hbheight⟩ := Pixmap.valid_of_create hblank
  have hcreate : Pixmap.create blank.width blank.height (settings.schemes.of top).background =
      .ok blank := by
    rw [hbwidth, hbheight]
    exact hblank
  rw [← hbwidth] at hwidth hcolumns
  rw [← hbheight] at hheight hrows
  obtain ⟨p, hrun, hpart⟩ := Pixmap.exists_forM_step ⟨hvalid, hcolumns, hrows⟩ hfits
  refine ⟨p, (draw_eq_ok p).mpr ⟨blank, hblank, ?_⟩, ?_⟩
  · obtain ⟨_, p₁, hicon, hrest⟩ := (Step.bind_eq_ok ..).mp hrun
    obtain ⟨_, p₂, htitle, hrest⟩ := (Step.bind_eq_ok ..).mp hrest
    obtain ⟨_, _, hbody, hdone⟩ := (Step.bind_eq_ok ..).mp hrest
    obtain ⟨-, rfl⟩ := EStateM.Result.ok.inj hdone
    obtain ⟨hmargin, hmargin'⟩ := settings.sizes.marginOffset_range
    have hroom : screenWidth = 256 ∧ screenHeight = 192 := ⟨rfl, rfl⟩
    have hcorner : (icon.drawIcon top.iconCorner settings.sizes.marginOffset).run blank =
        .ok () p₁ := by
      rw [Pixmap.run_drawIcon hwidth hheight hmargin (by omega) (by omega)]
      unfold Pixmap.iconLeft Pixmap.iconTop
      rw [hbwidth, hbheight]
      exact hicon
    rw [run_paint_top settings hcorner hsize hleft htitle hwrap, htop]
    exact hbody
  · unfold drawTopPart
    rw [Pixmap.create_crop hcreate hcolumns hrows, except_ok_bind]
    dsimp only
    rw [(Step.result_eq_ok ..).mpr hpart]
    rfl

end TwinScreen.Screen
