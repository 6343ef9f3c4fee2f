import TwinScreen.Proofs.Compositor.Readiness

/-!
# Failures leave everything as it was

Preparing a compositor and combining screens on it can fail. Both compute and check all they need
before they change anything: a preparation makes its image first, and in a prepared image both
screens fit, so once the first screen is copied nothing is left that could fail. Hence a failure
leaves the compositor as it was, to the last byte, and a success shows both screens
(`failures_intact`).
-/
namespace TwinScreen

/-- The size of an image fails only by overflow. -/
theorem Arrangement.size_eq_error {a : Arrangement} {gap : Nat} {e : Fault}
    (h : a.size gap = .error e) : e = .overflow := by
  have hadd : ∀ n : Nat, ∀ next : Nat → Except Fault (Nat × Nat), (∀ m, ∃ s, next m = .ok s) →
      (Size.add n gap >>= next) = .error e → e = .overflow := by
    intro n next hnext hsum
    by_cases hroom : n + gap < Size.bound
    · obtain ⟨s, hs⟩ := hnext (n + gap)
      rw [Size.add_of_lt hroom, except_ok_bind, hs] at hsum
      cases hsum
    · rw [Size.add_of_not_lt hroom] at hsum
      exact (Except.error.inj hsum).symm
  cases a with
  | topBottom | bottomTop | leftRight | rightLeft => exact hadd _ _ (fun m => ⟨_, rfl⟩) h
  | topOnly | bottomOnly => cases h

theorem Pixmap.create_eq_error {width height : Nat} {fill : Color} {e : Fault}
    (h : create width height fill = .error e) :
    Size.bytesMax < pixelBytes * (width * height) ∧ (e = .overflow ∨ e = .capacity) := by
  have hroom : ¬ pixelBytes * (width * height) ≤ Size.bytesMax := by
    intro hroom
    rw [(create_eq_ok ..).mpr ⟨hroom, rfl⟩] at h
    cases h
  refine ⟨Nat.lt_of_not_le hroom, ?_⟩
  unfold create at h
  by_cases hcount : width * height < Size.bound
  · rw [Size.mul_of_lt hcount, except_ok_bind, if_neg hroom] at h
    exact .inr (Except.error.inj h).symm
  · rw [Size.mul_of_not_lt hcount] at h
    exact .inl (Except.error.inj h).symm

namespace Compositor

/-- No image of the size that the arrangement and the gap ask for can exist: one of its sides is no
size, or it would take too many bytes. -/
def TooLarge (c : Compositor) : Prop :=
  ∀ width height, c.arrangement.size c.gap = .ok (width, height) →
    Size.bytesMax < pixelBytes * (width * height)

/-- Preparing fails just when no image of the size can exist. -/
theorem prepare_fails_iff (renderer : Renderer) (c : Compositor) :
    (∃ e c', (prepare renderer).run c = .error e c') ↔ c.TooLarge := by
  constructor
  · rintro ⟨e, c', h⟩ width height hsize
    apply Nat.lt_of_not_le
    intro hroom
    obtain ⟨_, _, hok⟩ := exists_prepare renderer hsize hroom
    rw [hok] at h
    cases h
  · intro hlarge
    cases hrun : (prepare renderer).run c with
    | error e c' => exact ⟨e, c', rfl⟩
    | ok notice c' =>
      obtain ⟨width, height, image, hsize, himage, _⟩ := prepare_eq_ok hrun
      obtain ⟨hroom, _⟩ := (Pixmap.create_eq_ok ..).mp himage
      exact absurd hroom (Nat.not_le_of_lt (hlarge width height hsize))

theorem prepare_fault {renderer : Renderer} {c c' : Compositor} {e : Fault}
    (h : (prepare renderer).run c = .error e c') : e = .overflow ∨ e = .capacity := by
  rw [run_prepare] at h
  split at h
  · rename_i hsize
    obtain ⟨rfl, _⟩ := EStateM.Result.error.inj h
    exact .inl (Arrangement.size_eq_error hsize)
  · split at h
    · rename_i himage
      obtain ⟨rfl, _⟩ := EStateM.Result.error.inj h
      exact (Pixmap.create_eq_error himage).2
    · cases h

/-- What stands in the way of combining these screens. -/
def Hindered (c : Compositor) (top bottom : Pixmap) : Prop :=
  c.stale = true ∨ top.isScreen = false ∨ bottom.isScreen = false ∨
    Size.bound ≤ c.gap + screenWidth

/-- A hindrance is found before anything is copied. -/
theorem combine_of_hindered {c : Compositor} {top bottom : Pixmap} (h : c.Hindered top bottom) :
    ∃ e, (combine top bottom).run c = .error e c ∧
      e ∈ [Fault.unprepared, .topScreenSize, .bottomScreenSize, .overflow] := by
  by_cases hrefused : c.stale = true ∨ top.isScreen = false ∨ bottom.isScreen = false
  · obtain ⟨e, hrun, he⟩ := combine_of_refused hrefused
    have hall : e ∈ [Fault.unprepared, .topScreenSize, .bottomScreenSize] ++ [.overflow] :=
      List.mem_append_left _ he
    exact ⟨e, hrun, hall⟩
  · simp only [not_or, Bool.not_eq_true, Bool.not_eq_false] at hrefused
    obtain ⟨hstale, htop, hbottom⟩ := hrefused
    have hgap : Size.bound ≤ c.gap + screenWidth := by
      simpa [Hindered, hstale, htop, hbottom] using h
    exact ⟨.overflow, combine_of_wide hstale htop hbottom hgap, by simp⟩

/-- Without a hindrance both screens are copied. -/
theorem combine_of_not_hindered {c : Compositor} {top bottom : Pixmap} (hc : c.Sound)
    (htop : top.Valid) (hbottom : bottom.Valid) (h : ¬ c.Hindered top bottom) :
    ∃ c', (combine top bottom).run c = .ok () c' := by
  simp only [Hindered, not_or, Nat.not_le] at h
  obtain ⟨hstale, htopSize, hbottomSize, hgap⟩ := h
  refine combine_of_not_refused hc hgap htop hbottom ?_
  rintro (h | h | h)
  · exact hstale h
  · exact htopSize h
  · exact hbottomSize h

/-- Combining valid screens fails just when one of the named hindrances is there. -/
theorem combine_fails_iff {c : Compositor} {top bottom : Pixmap} (hc : c.Sound)
    (htop : top.Valid) (hbottom : bottom.Valid) :
    (∃ e c', (combine top bottom).run c = .error e c') ↔ c.Hindered top bottom := by
  constructor
  · rintro ⟨e, c', h⟩
    by_contra hfree
    obtain ⟨_, hok⟩ := combine_of_not_hindered hc htop hbottom hfree
    rw [hok] at h
    cases h
  · intro h
    obtain ⟨e, hrun, _⟩ := combine_of_hindered h
    exact ⟨e, c, hrun⟩

/-- A failed combination leaves everything as it was. -/
theorem combine_eq_error {c c' : Compositor} {top bottom : Pixmap} {e : Fault} (hc : c.Sound)
    (htop : top.Valid) (hbottom : bottom.Valid) (h : (combine top bottom).run c = .error e c') :
    c' = c ∧ e ∈ [Fault.unprepared, .topScreenSize, .bottomScreenSize, .overflow] := by
  have hhindered := (combine_fails_iff hc htop hbottom).mp ⟨e, c', h⟩
  obtain ⟨e', hrun, he'⟩ := combine_of_hindered hhindered
  rw [hrun] at h
  obtain ⟨rfl, rfl⟩ := EStateM.Result.error.inj h
  exact ⟨rfl, he'⟩

/-- What has been combined shows both screens at their corners and is otherwise set as before. -/
theorem combine_shows {c c' : Compositor} {top bottom : Pixmap}
    (h : (combine top bottom).run c = .ok () c') :
    ∃ origins image, c.arrangement.origins c.gap = .ok origins ∧ c' = { c with image } ∧
      ShowsScreen image.pixel? top origins.top ∧
      ShowsScreen image.pixel? bottom origins.bottom := by
  obtain ⟨origins, image, middle, horigins, hc', htop, hbottom⟩ := combine_placed h
  exact ⟨origins, image, horigins, hc', hbottom.shows_top horigins htop.shows, hbottom.shows⟩

/-- Whatever was done with a compositor: a preparation fails exactly if no image of the right size
can exist, combining fails exactly if something stands in its way, and a failure of either leaves
the compositor as it was before, with every byte of its image. Combining that does not fail shows
both screens. -/
theorem failures_intact {σ : Type} (arrangement : Arrangement) (gap : Nat) (before : σ)
    (history : List (Action σ)) (c : Compositor)
    (hc : c = (run history (new arrangement gap, before)).1) :
    (∀ renderer, ((∃ e c', (prepare renderer).run c = .error e c') ↔ c.TooLarge) ∧
      ∀ e c', (prepare renderer).run c = .error e c' →
        c' = c ∧ (e = .overflow ∨ e = .capacity)) ∧
    ∀ top bottom : Pixmap, top.Valid → bottom.Valid →
      ((∃ e c', (combine top bottom).run c = .error e c') ↔ c.Hindered top bottom) ∧
      (∀ e c', (combine top bottom).run c = .error e c' →
        c' = c ∧ e ∈ [Fault.unprepared, .topScreenSize, .bottomScreenSize, .overflow]) ∧
      ∀ c', (combine top bottom).run c = .ok () c' →
        ∃ origins image, c.arrangement.origins c.gap = .ok origins ∧ c' = { c with image } ∧
          ShowsScreen image.pixel? top origins.top ∧
          ShowsScreen image.pixel? bottom origins.bottom := by
  have hsound : c.Sound := by
    rw [hc]
    exact run_sound history (new_sound arrangement gap)
  refine ⟨fun renderer => ⟨prepare_fails_iff renderer c, fun e c' h => ?_⟩, ?_⟩
  · exact ⟨prepare_eq_error h, prepare_fault h⟩
  · intro top bottom htop hbottom
    exact ⟨combine_fails_iff hsound htop hbottom,
      fun e c' => combine_eq_error hsound htop hbottom, fun c' => combine_shows⟩

/-- With a gap that leaves no room for a screen beside it an image for one screen alone is made, but
no screens are combined on it, and no image for both screens can be made. -/
theorem failures_intact_wide :
    let top := ErrorScreens.plainScreen 1
    let bottom := ErrorScreens.plainScreen 2
    let alone : List (Action Unit) := [.prepare .openGl]
    let start : Compositor × Unit := (new .topOnly 0xFFFFFFFFFFFFFF00, ())
    let c := (run alone start).1
    let c' := (run (alone ++ [.setArrangement .leftRight]) start).1
    c.stale = false ∧ (∃ e, (combine top bottom).run c = .error e c) ∧
      ∃ e, (prepare .software).run c' = .error e c' := by
  intro top bottom alone start c c'
  have hsize : start.1.arrangement.size start.1.gap = .ok (256, 192) := rfl
  obtain ⟨notice, image, hprepare⟩ := exists_prepare .openGl hsize (by decide)
  have hc : c = ⟨.topOnly, 0xFFFFFFFFFFFFFF00, some .openGl, false, image⟩ :=
    Step.after_of_ok hprepare
  have hc' : c'.arrangement = .leftRight ∧ c'.gap = 0xFFFFFFFFFFFFFF00 := by
    have hrun : c' = c.setArrangement .leftRight := rfl
    rw [hrun, hc]
    exact ⟨rfl, rfl⟩
  have hlarge : c'.TooLarge := by
    intro width height hsize
    rw [hc'.1, hc'.2] at hsize
    cases hsize
  have hintact := failures_intact .topOnly 0xFFFFFFFFFFFFFF00 ()
  refine ⟨by rw [hc], ?_, ?_⟩
  · have hwide : Size.bound ≤ 0xFFFFFFFFFFFFFF00 + screenWidth := by decide
    have hhindered : c.Hindered top bottom := by
      rw [hc]
      exact .inr (.inr (.inr hwide))
    obtain ⟨hfails, hkept, _⟩ := (hintact alone c rfl).2 top bottom
      (ErrorScreens.plainScreen_valid 1).valid (ErrorScreens.plainScreen_valid 2).valid
    obtain ⟨e, t, hrun⟩ := hfails.mpr hhindered
    obtain ⟨rfl, _⟩ := hkept e t hrun
    exact ⟨e, hrun⟩
  · obtain ⟨hfails, hkept⟩ := (hintact _ c' rfl).1 .software
    obtain ⟨e, t, hrun⟩ := hfails.mpr hlarge
    obtain ⟨rfl, _⟩ := hkept e t hrun
    exact ⟨e, hrun⟩

end Compositor

end TwinScreen
