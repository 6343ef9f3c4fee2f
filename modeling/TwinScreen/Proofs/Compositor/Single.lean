import TwinScreen.Proofs.Compositor.Readiness
import TwinScreen.Proofs.Frame.Recording
import TwinScreen.Proofs.Screen.Painting

/-!
# One screen alone

An arrangement may show one of the two screens alone. The image then has the size of that screen
whatever the gap is, and the frame is the screen, byte for byte. But the corner of the hidden screen
is computed as well, so a gap that leaves no room for a screen beside it stops the presentation
(`present_alone`). Drawn screens are presented in this way whatever they show, so a recorder is left
with the drawn screen itself (`presentToRecorder_of_draw`).
-/
namespace TwinScreen

/-! ## Finished screens -/

/-- A drawn screen is a valid pixmap with the size of a screen. -/
theorem Screen.validScreen_of_draw {screen : Screen} {text : List Char} {icon : Pixmap}
    {fonts : Fonts} {settings : Settings} {p : Pixmap}
    (h : draw screen text icon fonts settings = .ok p) : p.ValidScreen := by
  obtain ⟨hvalid, hsize⟩ := valid_of_draw h
  exact ⟨hvalid, p.isScreen_iff.mpr hsize⟩

namespace ErrorScreens

/-- Both screens are valid pixmaps with the size of a screen. -/
structure Finished (screens : ErrorScreens) : Prop where
  top : screens.top.ValidScreen
  bottom : screens.bottom.ValidScreen

/-- All screens of a diagnostic are finished. -/
theorem finished_of_draw {diagnostic : Diagnostic} {settings : Settings} {screens : ErrorScreens}
    {notices : List Notice} (h : draw diagnostic settings = .ok (screens, notices)) :
    screens.Finished := by
  simp only [draw, Screen.drawEmbedded, except_bind_eq_ok] at h
  obtain ⟨fonts, _, top, ⟨_, _, htop⟩, bottom, ⟨_, _, hbottom⟩, hscreens⟩ := h
  obtain ⟨rfl, _⟩ := Prod.mk.inj (Except.ok.inj hscreens)
  exact ⟨Screen.validScreen_of_draw htop, Screen.validScreen_of_draw hbottom⟩

/-- The arrangement shows this one of the screens and hides the other. -/
inductive ShowsAlone (screens : ErrorScreens) : Arrangement → Pixmap → Prop where
  | top : ShowsAlone screens .topOnly screens.top
  | bottom : ShowsAlone screens .bottomOnly screens.bottom

variable {screens : ErrorScreens} {a : Arrangement} {shown : Pixmap}

theorem ShowsAlone.validScreen (h : screens.ShowsAlone a shown) (hscreens : screens.Finished) :
    shown.ValidScreen := by
  cases h with
  | top => exact hscreens.top
  | bottom => exact hscreens.bottom

/-- The gap has no part in the size of the image. -/
theorem ShowsAlone.size_eq (h : screens.ShowsAlone a shown) (gap : Nat) :
    a.size gap = .ok (screenWidth, screenHeight) := by
  cases h <;> rfl

end ErrorScreens

namespace Compositor

variable {screens : ErrorScreens} {a : Arrangement} {shown : Pixmap} {c c' : Compositor}

/-! ## Combining -/

/-- A screen that is placed on another one replaces it. -/
theorem Placed.eq_screen {screen p p' : Pixmap} (hscreen : screen.ValidScreen)
    (hp : p.ValidScreen) (h : Placed screen (some (0, 0)) p p') : p' = screen := by
  obtain ⟨hwidth, hheight⟩ := p.isScreen_iff.mp hp.isScreen
  obtain ⟨hwidth', hheight'⟩ := screen.isScreen_iff.mp hscreen.isScreen
  rw [← h.shape.width_eq] at hwidth
  rw [← h.shape.height_eq] at hheight
  refine (h.shape.valid hp.valid).ext hscreen.valid (hwidth.trans hwidth'.symm)
    (hheight.trans hheight'.symm) fun x hx y hy => ?_
  rw [hwidth] at hx
  rw [hheight] at hy
  obtain ⟨color, hcolor, hshown⟩ := h.shows (0, 0) rfl x hx y hy
  rw [Nat.zero_add, Nat.zero_add] at hshown
  rw [hshown, ((hscreen.valid.hasRow (by omega)).pixel_eq_ok color).mp hcolor]

/-- A hidden screen leaves no trace. -/
theorem Placed.eq_of_hidden {screen p p' : Pixmap} (hp : p.Valid) (h : Placed screen none p p') :
    p' = p :=
  (h.shape.valid hp).ext hp h.shape.width_eq h.shape.height_eq fun x _ y _ =>
    h.rest x y (not_covers_none x y)

/-- All that is left of an image of this size is the screen that is shown. -/
theorem combine_alone (hscreens : screens.Finished)
    (hshown : screens.ShowsAlone c.arrangement shown) (hc : c.image.ValidScreen)
    (h : (combine screens.top screens.bottom).run c = .ok () c') :
    c' = { c with image := shown } := by
  obtain ⟨origins, image, middle, horigins, rfl, htop, hbottom⟩ := combine_placed h
  simp only [Arrangement.origins, except_bind_eq_ok] at horigins
  obtain ⟨_, _, _, _, horigins⟩ := horigins
  obtain rfl := Except.ok.inj horigins
  -- The arrangement has to be a variable for the cases of the two that show one screen.
  cases c
  dsimp only at *
  cases hshown with
  | top =>
    obtain rfl := htop.eq_screen hscreens.top hc
    rw [hbottom.eq_of_hidden hscreens.top.valid]
  | bottom =>
    obtain rfl := htop.eq_of_hidden hc.valid
    rw [hbottom.eq_screen hscreens.bottom hc]

end Compositor

namespace ErrorScreens

variable {screens : ErrorScreens} {a : Arrangement} {shown : Pixmap} {gap : Nat}

/-! ## Presenting -/

/-- A new compositor is prepared with an image for one screen, whatever the gap is. -/
theorem run_refresh_alone (hshown : screens.ShowsAlone a shown) (gap : Nat) :
    ∃ image : Pixmap, image.ValidScreen ∧ refresh.run (Compositor.new a gap) =
      .ok [.prepared a .software screenWidth screenHeight gap]
        ⟨a, gap, some .software, false, image⟩ := by
  have hsize : (Compositor.new a gap).arrangement.size (Compositor.new a gap).gap =
      .ok (screenWidth, screenHeight) := hshown.size_eq gap
  obtain ⟨notice, image, hprepare⟩ := Compositor.exists_prepare .software hsize (by decide)
  obtain ⟨width, height, image', hsize', himage, rfl, hsame⟩ := Compositor.prepare_eq_ok hprepare
  obtain ⟨rfl, rfl⟩ := Prod.mk.inj (Except.ok.inj (hsize.symm.trans hsize'))
  obtain rfl : image = image' := congrArg Compositor.image hsame
  obtain ⟨hvalid, hwidth, hheight⟩ := Pixmap.valid_of_create himage
  refine ⟨image, ⟨hvalid, image.isScreen_iff.mpr ⟨hwidth, hheight⟩⟩, ?_⟩
  unfold refresh
  rw [Step.run_get_bind]
  exact Step.run_bind_of_ok hprepare _

/-- Where the corners can be computed, the frame is the screen that is shown. -/
theorem compose_alone (hscreens : screens.Finished) (hshown : screens.ShowsAlone a shown)
    (hgap : gap + screenWidth < Size.bound) :
    screens.compose.run (Compositor.new a gap) =
      .ok (⟨shown.bytes, screenWidth, screenHeight, screenWidth * pixelBytes⟩,
          [.prepared a .software screenWidth screenHeight gap])
        ⟨a, gap, some .software, false, shown⟩ := by
  obtain ⟨image, himage, hrefresh⟩ := run_refresh_alone hshown gap
  obtain ⟨hsound, _⟩ := refresh_eq_ok (Compositor.new_sound a gap) hrefresh
  obtain ⟨origins, horigins⟩ := a.exists_origins hgap
  let t : Compositor := ⟨a, gap, some .software, false, image⟩
  -- The cleared image has the size of a screen, so no place of it is left uncovered.
  have hkept := t.cleared_sameSetting
  have hcleared : t.cleared.image.ValidScreen :=
    ⟨hkept.shape.valid himage.valid, himage.isScreen⟩
  obtain ⟨c', hcombine⟩ := Compositor.exists_combine hscreens.top hscreens.bottom
    (hkept.sound hsound) rfl horigins
  have hc' := Compositor.combine_alone hscreens hshown hcleared hcombine
  obtain ⟨hwidth, hheight⟩ := shown.isScreen_iff.mp (hshown.validScreen hscreens).isScreen
  have hframe : Frame.ofPixmap shown =
      .ok ⟨shown.bytes, screenWidth, screenHeight, screenWidth * pixelBytes⟩ := by
    rw [Frame.ofPixmap_eq_ok, hwidth, hheight]
    exact ⟨by decide, rfl⟩
  refine (compose_eq_ok ..).mpr ⟨t, hrefresh, ?_, hframe⟩
  rw [hcombine, hc']
  rfl

/-- A wider gap stops the composition before anything is copied. -/
theorem compose_of_wide (hscreens : screens.Finished) (hshown : screens.ShowsAlone a shown)
    (hgap : Size.bound ≤ gap + screenWidth) :
    ∃ c', screens.compose.run (Compositor.new a gap) = .error .overflow c' := by
  obtain ⟨image, _, hrefresh⟩ := run_refresh_alone hshown gap
  let t : Compositor := ⟨a, gap, some .software, false, image⟩
  have hcombine : (Compositor.combine screens.top screens.bottom).run t.cleared =
      .error .overflow t.cleared :=
    Compositor.combine_of_wide rfl hscreens.top.isScreen hscreens.bottom.isScreen hgap
  refine ⟨t.cleared, ?_⟩
  unfold compose
  rw [Step.run_bind_of_ok hrefresh, Step.run_bind_of_ok t.run_clear]
  exact Step.run_bind_of_error hcombine _

/-- Of a diagnostic whose settings show one screen alone, a new recorder holds just that screen as
it was drawn, or nothing if the gap is too wide. -/
theorem presentToRecorder_of_draw {diagnostic : Diagnostic} {settings : Settings}
    {notices : List Notice} (hdraw : draw diagnostic settings = .ok (screens, notices))
    (hshown : screens.ShowsAlone settings.placement.arrangement shown) :
    (settings.placement.gap.toNat + screenWidth < Size.bound → ∃ drawn c,
        screens.presentToRecorder.run (settings.placement.compositor, .empty) =
          .ok drawn (c, ⟨some shown, 1⟩)) ∧
      (Size.bound ≤ settings.placement.gap.toNat + screenWidth → ∃ c,
        screens.presentToRecorder.run (settings.placement.compositor, .empty) =
          .error .overflow (c, .empty)) := by
  have hscreens := finished_of_draw hdraw
  have hvalid := (hshown.validScreen hscreens).valid
  constructor
  · intro hgap
    obtain ⟨t, _, _, hframe⟩ := (compose_eq_ok ..).mp (compose_alone hscreens hshown hgap)
    have hrecord := (Recorder.record_eq_ok (Recorder.none_sound 0)
      (Frame.readable_of_ofPixmap hvalid hframe) ⟨some shown, 1⟩).mpr
        ⟨Frame.storable_of_ofPixmap hvalid hframe, by decide,
          by rw [Frame.picture_of_ofPixmap hvalid hframe]⟩
    exact ⟨_, _, (present_eq_ok ..).mpr ⟨_, _, [], compose_alone hscreens hshown hgap,
      Step.run_bind_of_ok hrecord _, rfl⟩⟩
  · intro hgap
    obtain ⟨c', hcompose⟩ := compose_of_wide hscreens hshown hgap
    exact ⟨c', present_of_error hcompose _ _⟩

/-- A new compositor that shows one screen alone sends this screen to the output, byte for byte and
with the gap in no part of it, as long as the gap leaves room for a screen beside it. With any wider
gap the presentation overflows, and the output is not reached. -/
theorem present_alone {σ : Type} (hscreens : screens.Finished)
    (hshown : screens.ShowsAlone a shown) (gap : Nat) (output : Frame → Step σ (List Notice))
    (s : σ) :
    (gap + screenWidth < Size.bound → ∀ more s',
      (output ⟨shown.bytes, screenWidth, screenHeight, screenWidth * pixelBytes⟩).run s =
          .ok more s' →
        (screens.present output).run (Compositor.new a gap, s) =
          .ok (.prepared a .software screenWidth screenHeight gap :: more)
            (⟨a, gap, some .software, false, shown⟩, s')) ∧
      (Size.bound ≤ gap + screenWidth → ∃ c',
        (screens.present output).run (Compositor.new a gap, s) = .error .overflow (c', s)) := by
  constructor
  · intro hgap more s' houtput
    exact (present_eq_ok ..).mpr
      ⟨_, _, more, compose_alone hscreens hshown hgap, houtput, rfl⟩
  · intro hgap
    obtain ⟨c', hcompose⟩ := compose_of_wide hscreens hshown hgap
    exact ⟨c', present_of_error hcompose output s⟩

/-- The widest gap that leaves room for a screen. -/
theorem present_alone_widest :
    let screens : ErrorScreens := ⟨⟨"No BIOS", "Copy it"⟩, plainScreen 1, plainScreen 2⟩
    let output : Frame → Step (List Frame) (List Notice) := fun f => do
      modify fun sent => f :: sent
      return []
    let gap := 0xFFFFFFFFFFFFFEFF
    screens.Finished ∧ screens.ShowsAlone .bottomOnly screens.bottom ∧
      ∃ c', (screens.present output).run (Compositor.new .bottomOnly gap, []) =
        .ok [.prepared .bottomOnly .software 256 192 gap]
          (c', [⟨screens.bottom.bytes, 256, 192, 1024⟩]) := by
  intro screens output gap
  have hscreens : screens.Finished := ⟨plainScreen_valid 1, plainScreen_valid 2⟩
  have hgap : gap + screenWidth < Size.bound := by decide
  exact ⟨hscreens, .bottom, _, (present_alone hscreens .bottom gap output []).1 hgap [] _ rfl⟩

/-- One more pixel, and the top screen is not presented alone. -/
theorem present_overflows_alone :
    let screens : ErrorScreens := ⟨⟨"No BIOS", "Copy it"⟩, plainScreen 1, plainScreen 2⟩
    let output : Frame → Step (List Frame) (List Notice) := fun f => do
      modify fun sent => f :: sent
      return []
    let gap := 0xFFFFFFFFFFFFFF00
    gap < Size.bound ∧ ∃ c', (screens.present output).run (Compositor.new .topOnly gap, []) =
      .error .overflow (c', []) := by
  intro screens output gap
  have hscreens : screens.Finished := ⟨plainScreen_valid 1, plainScreen_valid 2⟩
  have hgap : Size.bound ≤ gap + screenWidth := by decide
  obtain ⟨c', hcompose⟩ := compose_of_wide hscreens .top hgap
  exact ⟨by decide, c', present_of_error hcompose output []⟩

end ErrorScreens

end TwinScreen
