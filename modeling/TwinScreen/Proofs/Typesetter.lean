import TwinScreen.Font
import TwinScreen.Proofs.Pixmap.Drawing

/-!
# What drawing text does

Text is drawn by compositing its color, each time with some alpha, on pixels of a pixmap. A property
that each of these has, wherever it falls, the whole text has (`Font.draw_of_blend`): it keeps what
they keep, for one. A font without outlines draws nothing.
-/
namespace TwinScreen

open Typeface

variable {color : Color}

/-! ## What is kept -/

section Blends

variable {K : {α : Type} → Step Pixmap α → Prop}

theorem PlacedGlyph.ink_of_blend (hK : Step.Compositional @K)
    (hblend : ∀ alpha x y, K (Pixmap.blend x y (color.withAlpha alpha))) (left top : Int)
    (column row : Nat) (coverage : Float32) :
    K (PlacedGlyph.ink color left top column row coverage) := by
  unfold ink
  dsimp only
  split
  · exact hK.bind (hK.lift _) fun x => hK.bind (hK.lift _) fun y => hblend _ x y
  · exact hK.pure ()

theorem PlacedGlyph.draw_of_blend (hK : Step.Compositional @K)
    (hblend : ∀ alpha x y, K (Pixmap.blend x y (color.withAlpha alpha))) (g : PlacedGlyph)
    (scale : Float32) : K (g.draw scale color) := by
  refine hK.bind (hK.lift _) fun cells => hK.forM cells fun cell => ?_
  exact ink_of_blend hK hblend _ _ _ _ _

theorem Typesetter.draw_of_blend (hK : Step.Compositional @K)
    (hblend : ∀ alpha x y, K (Pixmap.blend x y (color.withAlpha alpha))) (t : Typesetter)
    (text : List Char) (x y : Int) : K (t.draw text x y color) :=
  hK.forM _ fun g => g.draw_of_blend hK hblend t.scale

/-- What compositing the color with any alpha has as a property, wherever it falls, drawing text
has. -/
theorem Font.draw_of_blend (hK : Step.Compositional @K)
    (hblend : ∀ alpha x y, K (Pixmap.blend x y (color.withAlpha alpha))) (f : Font)
    (text : List Char) (x y : Int) : K (f.draw text x y color) :=
  hK.bind (hK.lift _) fun t => t.draw_of_blend hK hblend text x y

end Blends

theorem Font.draw_preserves {Q : Pixmap → Prop}
    (hblend : ∀ alpha x y, Step.Preserves Q (Pixmap.blend x y (color.withAlpha alpha)))
    (f : Font) (text : List Char) (x y : Int) : Step.Preserves Q (f.draw text x y color) :=
  f.draw_of_blend (Step.Preserves.compositional Q) hblend text x y

/-! ## Fonts without outlines -/

/-- The tables have data of no glyph. -/
def Typeface.Tables.Outlineless (t : Tables) : Prop := ∀ glyph, t.glyphData? glyph = none

theorem Typeface.Tables.Outlineless.outline?_eq_none {t : Tables} (h : t.Outlineless)
    (glyph : Nat) : outline? t glyph = none := by
  unfold outline?
  rw [h glyph]
  rfl

/-- The tables of a font with one glyph, which has no data. -/
def Typeface.Tables.plain : Tables where
  extents := .ok ⟨800, -200, 0⟩
  maps := []
  kernings := []
  glyphCount := 1
  metricCount := 0
  hmtx := #[]
  longLocations := false
  loca := #[]
  glyf := #[]

theorem Typeface.Tables.plain_outlineless : Tables.plain.Outlineless := by
  intro glyph
  have hnone : Tables.plain.locationCount = 0 := rfl
  unfold glyphData?
  rw [if_pos (by omega)]
  rfl

theorem Typesetter.placeLine_of_outlineless {t : Typesetter} (h : t.tables.Outlineless)
    (baseline pen : Float32) (previous : Option Nat) (line : List Char) :
    t.placeLine baseline pen previous line = [] := by
  induction line generalizing pen previous with
  | nil => rfl
  | cons c more ih => simp only [placeLine, h.outline?_eq_none, ih]

theorem Typesetter.place_of_outlineless {t : Typesetter} (h : t.tables.Outlineless)
    (text : List Char) (x y : Int) : t.place text x y = [] := by
  unfold place
  rw [List.flatten_eq_nil_iff]
  intro glyphs hglyphs
  obtain ⟨⟨line, i⟩, _, rfl⟩ := List.mem_map.mp hglyphs
  exact placeLine_of_outlineless h _ _ _ line

/-- A font without outlines whose extents can be used leaves a pixmap as it is. -/
theorem Font.run_draw_of_outlineless {f : Font} (h : f.tables.Outlineless) {extents : Extents}
    (hextents : f.tables.extents = .ok extents) (text : List Char) (x y : Int) (p : Pixmap) :
    (f.draw text x y color).run p = .ok () p := by
  have htypesetter : f.typesetter = .ok ⟨f.tables, extents, f.height⟩ := by
    unfold typesetter
    rw [hextents]
    rfl
  unfold draw
  rw [htypesetter, Step.run_bind_of_ok (Step.run_lift_ok ..)]
  unfold Typesetter.draw
  rw [Typesetter.place_of_outlineless (t := ⟨f.tables, extents, f.height⟩) h]
  rfl

/-! ## A font with an outline -/

/-- The tables of a font whose only glyph with an outline is that of `O`, a rectangle three units
wide that hangs four units from the top of the line. Every character is fifteen units wide. -/
def Typeface.Tables.banner : Tables where
  extents := .ok ⟨24, -4, 0⟩
  maps := [⟨.trimmed, #[0, 6, 0, 12, 0, 0, 0, 79, 0, 1, 0, 1]⟩]
  kernings := []
  glyphCount := 2
  metricCount := 1
  hmtx := #[0, 15, 0, 0]
  longLocations := false
  loca := #[0, 0, 0, 0, 0, 11]
  glyf := #[0, 1, 0, 0, 0, 20, 0, 3, 0, 24, 0, 3, 0, 0, 0x35, 0x33, 0x35, 0x23, 3, 3, 20, 4]

end TwinScreen
