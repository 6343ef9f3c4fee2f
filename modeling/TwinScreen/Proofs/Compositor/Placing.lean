import TwinScreen.Proofs.Compositor.History

/-!
# Placing the screens

Both screens are copied to the corners that the arrangement gives them. Their rectangles lie inside
the image and have no position in common, so neither screen covers a part of the other.
-/
namespace TwinScreen

/-- A valid pixmap with the size of a screen. -/
structure Pixmap.ValidScreen (p : Pixmap) : Prop where
  valid : p.Valid
  isScreen : p.isScreen = true

theorem Pixmap.isScreen_iff (p : Pixmap) :
    p.isScreen = true ↔ p.width = screenWidth ∧ p.height = screenHeight := by
  simp [isScreen]

/-- The position is one of a screen with this upper left corner, if the screen is shown at all. -/
def Covers (corner : Option (Nat × Nat)) (x y : Nat) : Prop :=
  ∃ origin ∈ corner, Pixmap.InRect origin.1 origin.2 screenWidth screenHeight x y

/-- Every pixel of the screen stands at its place behind the corner, if the screen is shown at
all. -/
def ShowsScreen (pixel? : Nat → Nat → Option Color) (screen : Pixmap)
    (corner : Option (Nat × Nat)) : Prop :=
  ∀ origin ∈ corner, ∀ x < screenWidth, ∀ y < screenHeight,
    ∃ color, screen.pixel x y = .ok color ∧ pixel? (origin.1 + x) (origin.2 + y) = some color

@[simp] theorem covers_some (origin : Nat × Nat) (x y : Nat) :
    Covers (some origin) x y ↔
      Pixmap.InRect origin.1 origin.2 screenWidth screenHeight x y := by
  simp [Covers]

@[simp] theorem not_covers_none (x y : Nat) : ¬ Covers none x y := by
  simp [Covers]

namespace Arrangement

/-! ## Corners -/

/-- No position belongs to both screens. -/
theorem not_covers_both {a : Arrangement} {gap : Nat} {o : Origins} (h : a.origins gap = .ok o)
    {x y : Nat} (htop : Covers o.top x y) : ¬ Covers o.bottom x y := by
  simp only [origins, except_bind_eq_ok, Size.add_eq_ok] at h
  obtain ⟨_, ⟨_, rfl⟩, _, ⟨_, rfl⟩, ho⟩ := h
  obtain rfl := Except.ok.inj ho
  cases a <;> simp [Pixmap.InRect] at htop ⊢ <;> omega

/-- The image is as wide and as high as a screen at least, and its sides are sizes. -/
theorem size_range {a : Arrangement} {gap width height : Nat}
    (h : a.size gap = .ok (width, height)) :
    screenWidth ≤ width ∧ screenHeight ≤ height ∧ width < Size.bound ∧ height < Size.bound := by
  cases a <;>
    simp only [size, except_bind_eq_ok, Size.add_eq_ok, pure, Except.pure, Except.ok.injEq,
      Prod.mk.injEq] at h
  case topBottom | bottomTop =>
    obtain ⟨_, ⟨hlt, rfl⟩, rfl, rfl⟩ := h
    exact ⟨Nat.le_refl _, by omega, by decide, hlt⟩
  case leftRight | rightLeft =>
    obtain ⟨_, ⟨hlt, rfl⟩, rfl, rfl⟩ := h
    exact ⟨by omega, Nat.le_refl _, hlt, by decide⟩
  case topOnly | bottomOnly =>
    obtain ⟨rfl, rfl⟩ := h
    exact ⟨Nat.le_refl _, Nat.le_refl _, by decide, by decide⟩

/-- The image has room for two screens and the gap at most. -/
theorem size_le {a : Arrangement} {gap width height : Nat} (h : a.size gap = .ok (width, height)) :
    width ≤ screenWidth * 2 + gap ∧ height ≤ screenHeight * 2 + gap := by
  cases a <;>
    simp only [size, except_bind_eq_ok, Size.add_eq_ok, pure, Except.pure, Except.ok.injEq,
      Prod.mk.injEq] at h
  case topBottom | bottomTop =>
    obtain ⟨_, ⟨_, rfl⟩, rfl, rfl⟩ := h
    exact ⟨by omega, Nat.le_refl _⟩
  case leftRight | rightLeft =>
    obtain ⟨_, ⟨_, rfl⟩, rfl, rfl⟩ := h
    exact ⟨Nat.le_refl _, by omega⟩
  case topOnly | bottomOnly =>
    obtain ⟨rfl, rfl⟩ := h
    omega

/-- Both screens lie inside the image. -/
theorem corner_fits {a : Arrangement} {gap width height : Nat} {o : Origins}
    (hsize : a.size gap = .ok (width, height)) (h : a.origins gap = .ok o)
    {origin : Nat × Nat} (horigin : origin ∈ o.top ∨ origin ∈ o.bottom) :
    origin.1 + screenWidth ≤ width ∧ origin.2 + screenHeight ≤ height := by
  simp only [origins, except_bind_eq_ok, Size.add_eq_ok] at h
  obtain ⟨_, ⟨_, rfl⟩, _, ⟨_, rfl⟩, ho⟩ := h
  obtain rfl := Except.ok.inj ho
  cases a <;>
    simp only [size, except_bind_eq_ok, Size.add_eq_ok, pure, Except.pure, Except.ok.injEq,
      Prod.mk.injEq, Option.mem_def, Option.some.injEq, reduceCtorEq, or_false, false_or]
      at hsize horigin
  case topBottom | bottomTop =>
    obtain ⟨_, ⟨_, rfl⟩, rfl, rfl⟩ := hsize
    rcases horigin with rfl | rfl <;> dsimp only <;> omega
  case leftRight | rightLeft =>
    obtain ⟨_, ⟨_, rfl⟩, rfl, rfl⟩ := hsize
    rcases horigin with rfl | rfl <;> dsimp only <;> omega
  case topOnly | bottomOnly =>
    obtain ⟨rfl, rfl⟩ := hsize
    subst horigin
    dsimp only
    omega

/-- The corners can be computed if the gap leaves room for a screen beside it. -/
theorem exists_origins (a : Arrangement) {gap : Nat} (h : gap + screenWidth < Size.bound) :
    ∃ o, a.origins gap = .ok o := by
  have hbelow : Size.add screenHeight gap = .ok (screenHeight + gap) :=
    Size.add_of_lt (by unfold screenHeight; unfold screenWidth at h; omega)
  have hbeside : Size.add screenWidth gap = .ok (screenWidth + gap) := Size.add_of_lt (by omega)
  unfold origins
  rw [hbelow, hbeside]
  exact ⟨_, rfl⟩

/-- They cannot be computed with a wider gap, also where only one screen is shown. -/
theorem origins_of_wide (a : Arrangement) {gap : Nat} (h : Size.bound ≤ gap + screenWidth) :
    a.origins gap = .error .overflow := by
  have hbeside : Size.add screenWidth gap = .error .overflow := Size.add_of_not_lt (by omega)
  unfold origins
  by_cases hbelow : screenHeight + gap < Size.bound
  · rw [Size.add_of_lt hbelow, except_ok_bind, hbeside]
    rfl
  · rw [Size.add_of_not_lt hbelow]
    rfl

end Arrangement

namespace Compositor

/-! ## Placing -/

def cleared (c : Compositor) : Compositor := { c with image := c.image.filled clearColor }

theorem run_clear (c : Compositor) : clear.run c = .ok () c.cleared := rfl

theorem cleared_sameSetting (c : Compositor) : c.SameSetting c.cleared :=
  ⟨rfl, rfl, rfl, rfl, c.image.filled_sameShape clearColor⟩

/-- The screen is shown at its corner, and everything outside it is as before. -/
structure Placed (screen : Pixmap) (corner : Option (Nat × Nat)) (p p' : Pixmap) : Prop where
  shape : p.SameShape p'
  shows : ShowsScreen p'.pixel? screen corner
  rest : ∀ x y, ¬ Covers corner x y → p'.pixel? x y = p.pixel? x y

/-- The top screen stays when the bottom screen is placed, since no position belongs to both. -/
theorem Placed.shows_top {a : Arrangement} {gap : Nat} {origins : Arrangement.Origins}
    {top bottom p p' : Pixmap} (horigins : a.origins gap = .ok origins)
    (htop : ShowsScreen p.pixel? top origins.top) (h : Placed bottom origins.bottom p p') :
    ShowsScreen p'.pixel? top origins.top := by
  intro origin horigin x hx y hy
  obtain ⟨color, hcolor, hshown⟩ := htop origin horigin x hx y hy
  refine ⟨color, hcolor, ?_⟩
  have hcovered : Covers origins.top (origin.1 + x) (origin.2 + y) :=
    ⟨origin, horigin, by unfold Pixmap.InRect; omega⟩
  rw [← hshown]
  exact h.rest _ _ (Arrangement.not_covers_both horigins hcovered)

/-- A placed screen stands at its corner in the image. -/
theorem place_eq_ok {screen : Pixmap} {corner : Option (Nat × Nat)} {c c' : Compositor}
    (hscreen : screen.isScreen = true) (h : (place screen corner).run c = .ok () c') :
    ∃ image, c' = { c with image } ∧ Placed screen corner c.image image := by
  obtain ⟨hwidth, hheight⟩ := screen.isScreen_iff.mp hscreen
  cases corner with
  | none =>
    obtain ⟨_, rfl⟩ := EStateM.Result.ok.inj h
    exact ⟨c.image, rfl, .refl _, by simp [ShowsScreen], fun _ _ _ => rfl⟩
  | some origin =>
    obtain ⟨image, hcopy, rfl⟩ := (Step.within_eq_ok ..).mp h
    obtain ⟨_, hpasted⟩ := Pixmap.copy_pasted hcopy
    refine ⟨image, rfl, hpasted.shape, ?_, ?_⟩
    · intro origin' horigin x hx y hy
      obtain rfl := Option.some.inj horigin
      rw [← hwidth] at hx
      rw [← hheight] at hy
      obtain ⟨color, hcolor⟩ := (hpasted.readable y hy).exists_pixel? hx hy
      refine ⟨color, ((hpasted.readable y hy).pixel_eq_ok color).mpr hcolor, ?_⟩
      rw [hpasted.inside x hx y hy, hcolor]
    · intro x y hxy
      rw [covers_some, ← hwidth, ← hheight] at hxy
      exact hpasted.outside x y hxy

theorem exists_place {screen : Pixmap} {corner : Option (Nat × Nat)} {c : Compositor}
    (hscreen : screen.ValidScreen) (hc : c.image.Valid)
    (hfits : ∀ origin ∈ corner,
      origin.1 + screenWidth ≤ c.image.width ∧ origin.2 + screenHeight ≤ c.image.height)
    (hsize : c.image.width < Size.bound ∧ c.image.height < Size.bound) :
    ∃ c', (place screen corner).run c = .ok () c' := by
  obtain ⟨hwidth, hheight⟩ := screen.isScreen_iff.mp hscreen.isScreen
  cases corner with
  | none => exact ⟨c, rfl⟩
  | some origin =>
    obtain ⟨hright, hbelow⟩ := hfits origin rfl
    rw [← hwidth] at hright
    rw [← hheight] at hbelow
    obtain ⟨image, hcopy⟩ :=
      Pixmap.exists_copy hscreen.valid hc (by omega) (by omega) hright hbelow
    exact ⟨_, (Step.within_eq_ok ..).mpr ⟨image, hcopy, rfl⟩⟩

/-- Combining is clearing the image and placing one screen after the other, once all checks are
passed. -/
theorem combine_eq_ok (top bottom : Pixmap) (c c' : Compositor) :
    (combine top bottom).run c = .ok () c' ↔
      c.stale = false ∧ top.isScreen = true ∧ bottom.isScreen = true ∧
        ∃ origins, c.arrangement.origins c.gap = .ok origins ∧
          ∃ t, (place top origins.top).run c = .ok () t ∧
            (place bottom origins.bottom).run t = .ok () c' := by
  simp only [combine, Step.run_get_bind, Step.bind_eq_ok, Step.check_eq_ok, Step.lift_eq_ok,
    Bool.not_eq_true, Bool.not_eq_false']
  constructor
  · rintro ⟨hstale, htop, hbottom, origins, _, ⟨horigins, rfl⟩, _, t, hfirst, hsecond⟩
    exact ⟨hstale, htop, hbottom, origins, horigins, t, hfirst, hsecond⟩
  · rintro ⟨hstale, htop, hbottom, origins, horigins, t, hfirst, hsecond⟩
    exact ⟨hstale, htop, hbottom, origins, c, ⟨horigins, rfl⟩, (), t, hfirst, hsecond⟩

/-- Combining places both screens on the image and leaves all else as it was. -/
theorem combine_placed {top bottom : Pixmap} {c c' : Compositor}
    (h : (combine top bottom).run c = .ok () c') :
    ∃ origins image middle, c.arrangement.origins c.gap = .ok origins ∧
      c' = { c with image } ∧ Placed top origins.top c.image middle ∧
      Placed bottom origins.bottom middle image := by
  obtain ⟨_, htop, hbottom, origins, horigins, t, hfirst, hsecond⟩ := (combine_eq_ok ..).mp h
  obtain ⟨middle, rfl, hmiddle⟩ := place_eq_ok htop hfirst
  obtain ⟨image, rfl, himage⟩ := place_eq_ok hbottom hsecond
  exact ⟨origins, image, middle, horigins, rfl, hmiddle, himage⟩

/-- Two valid screens are combined wherever their corners can be computed. -/
theorem exists_combine {top bottom : Pixmap} {c : Compositor} {origins : Arrangement.Origins}
    (htop : top.ValidScreen) (hbottom : bottom.ValidScreen) (hc : c.Sound)
    (hstale : c.stale = false) (horigins : c.arrangement.origins c.gap = .ok origins) :
    ∃ c', (combine top bottom).run c = .ok () c' := by
  have hsize := hc.size_eq hstale
  have hfits (origin : Nat × Nat) (h : origin ∈ origins.top ∨ origin ∈ origins.bottom) :=
    Arrangement.corner_fits hsize horigins h
  have hbound := (Arrangement.size_range hsize).2.2
  obtain ⟨t, hfirst⟩ := exists_place htop hc.image_valid
    (fun origin h => hfits origin (.inl h)) hbound
  -- The image keeps its shape, so the second screen fits as it did before the first was placed.
  have ht := place_preserves c top origins.top c (.refl c)
  rw [Step.after_of_ok hfirst] at ht
  have htfits : ∀ origin ∈ origins.bottom,
      origin.1 + screenWidth ≤ t.image.width ∧ origin.2 + screenHeight ≤ t.image.height := by
    intro origin h
    rw [ht.shape.width_eq, ht.shape.height_eq]
    exact hfits origin (.inr h)
  have htbound : t.image.width < Size.bound ∧ t.image.height < Size.bound := by
    rwa [ht.shape.width_eq, ht.shape.height_eq]
  obtain ⟨c', hsecond⟩ := exists_place hbottom (ht.shape.valid hc.image_valid)
    htfits htbound
  exact ⟨c', (combine_eq_ok ..).mpr
    ⟨hstale, htop.isScreen, hbottom.isScreen, origins, horigins, t, hfirst, hsecond⟩⟩

end Compositor

end TwinScreen
