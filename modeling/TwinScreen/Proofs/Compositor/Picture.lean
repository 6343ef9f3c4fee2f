import TwinScreen.Proofs.Compositor.Placing

/-!
# The picture that is presented

A frame shows the top and the bottom screen at the corners that the arrangement gives them and the
clear color everywhere else. What was done with the compositor before leaves no trace in it.
-/
namespace TwinScreen

/-- The color that a frame shows at a position, if the position is inside. -/
def Frame.pixel? (f : Frame) (x y : Nat) : Option Color :=
  if x < f.width ∧ y < f.height then colorAt? f.bytes (y * f.pitch + x * pixelBytes) else none

/-- The frame has the size of the arrangement and shows both screens at their corners, and the
clear color wherever no screen is. -/
structure Frame.Shows (f : Frame) (arrangement : Arrangement) (gap : Nat)
    (screens : ErrorScreens) : Prop where
  size_eq : arrangement.size gap = .ok (f.width, f.height)
  pitch_eq : f.pitch = f.width * pixelBytes
  bytes_eq : f.bytes.size = f.height * f.pitch
  picture : ∃ origins, arrangement.origins gap = .ok origins ∧
    ShowsScreen f.pixel? screens.top origins.top ∧
    ShowsScreen f.pixel? screens.bottom origins.bottom ∧
    ∀ x < f.width, ∀ y < f.height, ¬ Covers origins.top x y → ¬ Covers origins.bottom x y →
      f.pixel? x y = some Compositor.clearColor

namespace ErrorScreens

/-! ## Composing -/

theorem refresh_eq_ok {c c' : Compositor} {notices : List Notice} (hc : c.Sound)
    (h : refresh.run c = .ok notices c') :
    c'.Sound ∧ c'.stale = false ∧ c'.arrangement = c.arrangement ∧ c'.gap = c.gap := by
  unfold refresh at h
  rw [Step.run_get_bind] at h
  split at h
  · obtain ⟨notice, t, hprepare, hpure⟩ := (Step.bind_eq_ok ..).mp h
    obtain ⟨_, rfl⟩ := EStateM.Result.ok.inj hpure
    have hsound := Compositor.prepared_sound hprepare
    obtain ⟨_, _, _, _, _, _, rfl⟩ := Compositor.prepare_eq_ok hprepare
    exact ⟨hsound, rfl, rfl, rfl⟩
  · rename_i hstale
    obtain ⟨_, rfl⟩ := EStateM.Result.ok.inj h
    exact ⟨hc, by simpa using hstale, rfl, rfl⟩

/-- Two screens placed on an image of the clear color make the picture of the arrangement. -/
theorem shows_of_placed {screens : ErrorScreens} {arrangement : Arrangement} {gap : Nat}
    {origins : Arrangement.Origins} {p middle image : Pixmap} {f : Frame} (hp : p.Valid)
    (hsize : arrangement.size gap = .ok (p.width, p.height))
    (horigins : arrangement.origins gap = .ok origins)
    (htop : Compositor.Placed screens.top origins.top (p.filled Compositor.clearColor) middle)
    (hbottom : Compositor.Placed screens.bottom origins.bottom middle image)
    (hf : Frame.ofPixmap image = .ok f) : f.Shows arrangement gap screens := by
  have hshape : p.SameShape image :=
    (p.filled_sameShape _).trans (htop.shape.trans hbottom.shape)
  simp only [Frame.ofPixmap, except_bind_eq_ok, Pixmap.stride, Size.mul_eq_ok] at hf
  obtain ⟨_, ⟨_, rfl⟩, hf⟩ := hf
  obtain rfl := Except.ok.inj hf
  refine ⟨?_, rfl, ?_, origins, horigins, hbottom.shows_top horigins htop.shows, hbottom.shows, ?_⟩
  · rw [hshape.width_eq, hshape.height_eq]
    exact hsize
  · have hbytes := (hshape.valid hp).size_eq
    rwa [Nat.mul_comm image.width, Nat.mul_assoc] at hbytes
  · intro x hx y hy hnottop hnotbottom
    calc image.pixel? x y
        = middle.pixel? x y := hbottom.rest x y hnotbottom
      _ = (p.filled Compositor.clearColor).pixel? x y := htop.rest x y hnottop
      _ = some Compositor.clearColor := by
        rw [hshape.width_eq] at hx
        rw [hshape.height_eq] at hy
        exact Pixmap.pixel?_filled hp _ hx hy

/-- The frame that is composed is the image on which the screens were combined. -/
theorem compose_eq_ok (screens : ErrorScreens) (c c' : Compositor) (f : Frame)
    (drawn : List Notice) :
    screens.compose.run c = .ok (f, drawn) c' ↔
      ∃ t, refresh.run c = .ok drawn t ∧
        (Compositor.combine screens.top screens.bottom).run t.cleared = .ok () c' ∧
        Frame.ofPixmap c'.image = .ok f := by
  unfold compose
  constructor
  · intro h
    obtain ⟨_, t, hrefresh, h⟩ := (Step.bind_eq_ok ..).mp h
    rw [Step.run_bind_of_ok (Compositor.run_clear t)] at h
    obtain ⟨_, t', hcombine, h⟩ := (Step.bind_eq_ok ..).mp h
    rw [Step.run_get_bind] at h
    obtain ⟨_, _, hframe, hpure⟩ := (Step.bind_eq_ok ..).mp h
    obtain ⟨hf, rfl⟩ := (Step.lift_eq_ok ..).mp hframe
    obtain ⟨hresult, rfl⟩ := EStateM.Result.ok.inj hpure
    obtain ⟨rfl, rfl⟩ := Prod.mk.inj hresult
    exact ⟨t, hrefresh, hcombine, hf⟩
  · rintro ⟨t, hrefresh, hcombine, hf⟩
    rw [Step.run_bind_of_ok hrefresh, Step.run_bind_of_ok (Compositor.run_clear t),
      Step.run_bind_of_ok hcombine, Step.run_get_bind, hf]
    rfl

/-- A composed frame shows both screens. -/
theorem compose_shows {screens : ErrorScreens} {c c' : Compositor} {f : Frame}
    {notices : List Notice} (hc : c.Sound) (h : screens.compose.run c = .ok (f, notices) c') :
    f.Shows c.arrangement c.gap screens := by
  obtain ⟨t, hrefresh, hcombine, hf⟩ := (compose_eq_ok ..).mp h
  obtain ⟨hsound, hstale, harrangement, hgap⟩ := refresh_eq_ok hc hrefresh
  obtain ⟨origins, image, middle, horigins, rfl, htop, hbottom⟩ :=
    Compositor.combine_placed hcombine
  rw [← harrangement, ← hgap]
  exact shows_of_placed hsound.image_valid (hsound.size_eq hstale) horigins htop hbottom hf

/-- Presenting composes a frame, whatever the output is, and sends it there. -/
theorem present_eq_ok {σ : Type} (output : Frame → Step σ (List Notice)) (screens : ErrorScreens)
    (c c' : Compositor) (s s' : σ) (notices : List Notice) :
    (screens.present output).run (c, s) = .ok notices (c', s') ↔
      ∃ f drawn more, screens.compose.run c = .ok (f, drawn) c' ∧
        (output f).run s = .ok more s' ∧ notices = drawn ++ more := by
  unfold present
  constructor
  · intro h
    obtain ⟨⟨f, drawn⟩, t, hcompose, h⟩ := (Step.bind_eq_ok ..).mp h
    obtain ⟨more, t', houtput, hpure⟩ := (Step.bind_eq_ok ..).mp h
    obtain ⟨_, hcomposed, rfl⟩ := (Step.within_eq_ok ..).mp hcompose
    obtain ⟨_, hsent, rfl⟩ := (Step.within_eq_ok ..).mp houtput
    obtain ⟨rfl, ht⟩ := EStateM.Result.ok.inj hpure
    obtain ⟨rfl, rfl⟩ := Prod.mk.inj ht
    exact ⟨f, drawn, more, hcomposed, hsent, rfl⟩
  · rintro ⟨f, drawn, more, hcomposed, hsent, rfl⟩
    rw [Step.run_bind_of_ok ((Step.within_eq_ok ..).mpr ⟨c', hcomposed, rfl⟩)]
    exact (Step.bind_eq_ok ..).mpr
      ⟨more, (c', s'), (Step.within_eq_ok ..).mpr ⟨s', hsent, rfl⟩, rfl⟩

/-! ## Completion -/

theorem exists_refresh {c : Compositor} {width height : Nat}
    (hsize : c.arrangement.size c.gap = .ok (width, height))
    (hroom : pixelBytes * (width * height) ≤ Size.bytesMax) :
    ∃ notices c', refresh.run c = .ok notices c' := by
  unfold refresh
  rw [Step.run_get_bind]
  split
  · obtain ⟨notice, image, hprepare⟩ := Compositor.exists_prepare .software hsize hroom
    rw [Step.run_bind_of_ok hprepare]
    exact ⟨_, _, rfl⟩
  · exact ⟨_, _, rfl⟩

/-- The screens of this size can be composed wherever the image can be made and its corners can be
computed. -/
theorem exists_compose {screens : ErrorScreens} {c : Compositor} {width height : Nat}
    {origins : Arrangement.Origins} (hc : c.Sound)
    (htop : screens.top.ValidScreen) (hbottom : screens.bottom.ValidScreen)
    (hsize : c.arrangement.size c.gap = .ok (width, height))
    (hroom : pixelBytes * (width * height) ≤ Size.bytesMax)
    (horigins : c.arrangement.origins c.gap = .ok origins) :
    ∃ f drawn c', screens.compose.run c = .ok (f, drawn) c' := by
  obtain ⟨drawn, t, hrefresh⟩ := exists_refresh hsize hroom
  obtain ⟨hsound, hstale, harrangement, hgap⟩ := refresh_eq_ok hc hrefresh
  rw [← harrangement, ← hgap] at horigins
  obtain ⟨c', hcombine⟩ := Compositor.exists_combine htop hbottom
    (t.cleared_sameSetting.sound hsound) hstale horigins
  have hkept := Compositor.combine_preserves t screens.top screens.bottom t.cleared
    t.cleared_sameSetting
  rw [Step.after_of_ok hcombine] at hkept
  have hheight := (Arrangement.size_range (hsound.size_eq hstale)).2.1
  have hrow : c'.image.HasRow 0 := (hkept.shape.valid hsound.image_valid).hasRow
    (by rw [hkept.shape.height_eq]; exact Nat.lt_of_lt_of_le (by decide) hheight)
  have hf : Frame.ofPixmap c'.image =
      .ok ⟨c'.image.bytes, c'.image.width, c'.image.height, c'.image.width * pixelBytes⟩ := by
    unfold Frame.ofPixmap
    rw [hrow.stride_eq]
    rfl
  exact ⟨_, _, _, (compose_eq_ok ..).mpr ⟨t, hrefresh, hcombine, hf⟩⟩

/-! ## After any history -/

/-- Whatever was done with a compositor before, the frame that a completed presentation sends to its
output shows the screens it was given, and nothing else. -/
theorem present_shows {σ : Type} (arrangement : Arrangement) (gap : Nat) (before : σ)
    (history : List (Compositor.Action σ)) (screens : ErrorScreens)
    (output : Frame → Step σ (List Notice)) (c c' : Compositor) (s s' : σ)
    (notices : List Notice)
    (hc : c = (Compositor.run history (Compositor.new arrangement gap, before)).1)
    (h : (screens.present output).run (c, s) = .ok notices (c', s')) :
    ∃ f drawn more, screens.compose.run c = .ok (f, drawn) c' ∧
      (output f).run s = .ok more s' ∧ notices = drawn ++ more ∧
      f.Shows c.arrangement c.gap screens := by
  have hsound : c.Sound := by
    rw [hc]
    exact Compositor.run_sound history (Compositor.new_sound arrangement gap)
  obtain ⟨f, drawn, more, hcomposed, hsent, hnotices⟩ := (present_eq_ok ..).mp h
  exact ⟨f, drawn, more, hcomposed, hsent, hnotices, compose_shows hsound hcomposed⟩

def plainScreen (level : UInt8) : Pixmap :=
  ⟨screenWidth, screenHeight, Array.replicate (screenWidth * screenHeight * pixelBytes) level⟩

theorem plainScreen_valid (level : UInt8) : (plainScreen level).ValidScreen := by
  refine ⟨⟨Array.size_replicate, ?_⟩, rfl⟩
  rw [plainScreen, Array.size_replicate]
  decide

/-- Other screens were shown one above the other before these are shown side by side. -/
theorem present_shows_swapped :
    let screens : ErrorScreens := ⟨⟨"No BIOS", "Copy it"⟩, plainScreen 1, plainScreen 2⟩
    let others : ErrorScreens := ⟨⟨"No card", "Insert one"⟩, plainScreen 3, plainScreen 4⟩
    let output : Frame → Step (List Frame) (List Notice) := fun f => do
      modify fun sent => f :: sent
      return []
    let c := (Compositor.run ([.present others output] ++ [.setArrangement .rightLeft, .setGap 8])
      (Compositor.new .topBottom 0, [])).1
    ∃ f drawn c', (screens.present output).run (c, []) = .ok drawn (c', [f]) ∧
      f.Shows .rightLeft 8 screens := by
  intro screens others output c
  have hc : c = (Compositor.run
      ([.present others output] ++ [.setArrangement .rightLeft, .setGap 8])
      (Compositor.new .topBottom 0, [])).1 := rfl
  have hsound : c.Sound := Compositor.run_sound _ (Compositor.new_sound .topBottom 0)
  have hlayout : c.arrangement = .rightLeft ∧ c.gap = 8 :=
    Compositor.run_set_layout [.present others output] .rightLeft 8 _
  have hcompose : ∃ f drawn c', screens.compose.run c = .ok (f, drawn) c' :=
    exists_compose hsound (plainScreen_valid 1) (plainScreen_valid 2)
      (by rw [hlayout.1, hlayout.2]; rfl)
      (show pixelBytes * (520 * 192) ≤ Size.bytesMax by decide)
      (by rw [hlayout.1, hlayout.2]; rfl)
  obtain ⟨f, drawn, c', hcomposed⟩ := hcompose
  have h : (screens.present output).run (c, []) = .ok drawn (c', [f]) :=
    (present_eq_ok ..).mpr ⟨f, drawn, [], hcomposed, rfl, (List.append_nil drawn).symm⟩
  obtain ⟨f', _, _, hcomposed', _, _, hshows⟩ :=
    present_shows .topBottom 0 [] _ screens output c c' [] [f] drawn hc h
  rw [hcomposed] at hcomposed'
  obtain ⟨hsame, _⟩ := EStateM.Result.ok.inj hcomposed'
  obtain ⟨rfl, _⟩ := Prod.mk.inj hsame
  rw [hlayout.1, hlayout.2] at hshows
  exact ⟨f, drawn, c', h, hshows⟩

end ErrorScreens

end TwinScreen
