import TwinScreen.Proofs.Compositor.Readiness

/-!
# The renderer of a presentation

A compositor remembers the renderer it was last prepared for. A presentation prepares a stale
compositor for software rendering, but takes a compositor that is ready as it is: there the renderer
of the latest preparation stays, whichever it is (`present_renderer`).
-/
namespace TwinScreen.Compositor

variable {σ : Type}

/-! ## The latest preparation -/

/-- The renderer that an action prepares a compositor for, if it prepares it. -/
def Action.target? : Action σ → Option Renderer
  | .prepare renderer => some renderer
  | .present _ _ => some .software
  | .setArrangement _ | .setGap _ | .clear | .combine _ _ => none

/-- The latest action of a history that prepared the compositor did so for this renderer. -/
def LatestFor (renderer : Renderer) (history : List (Action σ)) (s : Compositor × σ) : Prop :=
  Since (fun c action => action.Prepares c ∧ action.target? = some renderer) Action.Prepares
    history s

/-- The renderer is the one that was prepared for, if preparing succeeded, and otherwise stays. -/
theorem prepare_renderer (renderer r : Renderer) (c : Compositor) :
    ((prepare renderer).after c).renderer = some r ↔
      (∃ notice c', (prepare renderer).run c = .ok notice c') ∧ renderer = r ∨
        c.renderer = some r ∧ ¬ ∃ notice c', (prepare renderer).run c = .ok notice c' := by
  cases hrun : (prepare renderer).run c with
  | ok notice c' =>
    rw [Step.after_of_ok hrun]
    obtain ⟨_, _, _, _, _, _, rfl⟩ := prepare_eq_ok hrun
    simp
  | error e c' =>
    rw [Step.after_of_error hrun, prepare_eq_error hrun]
    simp

/-- An action leaves its renderer if it prepares the compositor, and else the renderer it finds. -/
theorem Action.after_renderer (action : Action σ) (r : Renderer) (s : Compositor × σ) :
    (action.after s).1.renderer = some r ↔
      (action.Prepares s.1 ∧ action.target? = some r) ∨
        s.1.renderer = some r ∧ ¬ action.Prepares s.1 := by
  cases action with
  | setArrangement arrangement => simp [Action.after, Prepares]
  | setGap gap => simp [Action.after, Prepares]
  | prepare renderer => simp [Action.after, Prepares, target?, prepare_renderer]
  | clear =>
    have hkept := clear_preserves s.1 s.1 (.refl _)
    simp [Action.after, Prepares, hkept.renderer_eq]
  | combine top bottom =>
    have hkept := combine_preserves s.1 top bottom s.1 (.refl _)
    simp [Action.after, Prepares, hkept.renderer_eq]
  | present screens output =>
    rw [Action.after, ErrorScreens.present_after, (screens.compose_after s.1).renderer_eq,
      ErrorScreens.refresh_after]
    cases hstale : s.1.stale with
    | false => simp [Prepares, hstale]
    | true => simp [Prepares, target?, hstale, prepare_renderer]

theorem run_renderer {s : Compositor × σ} (h : s.1.renderer = none) (r : Renderer)
    (history : List (Action σ)) :
    (run history s).1.renderer = some r ↔ LatestFor r history s := by
  induction history using List.reverseRecOn with
  | nil =>
    have hnever : ¬ LatestFor r [] s := not_since_nil _ _ s
    simp [run, h, hnever]
  | append_singleton history action ih =>
    rw [run_concat, Action.after_renderer, LatestFor, since_concat, ih]
    rfl

end TwinScreen.Compositor

namespace TwinScreen.ErrorScreens

open Compositor

variable {σ : Type}

/-! ## Presentations -/

theorem compose_settles {screens : ErrorScreens} {c c' : Compositor} {f : Frame}
    {drawn : List Notice} (h : screens.compose.run c = .ok (f, drawn) c') :
    c'.stale = false ∧ c'.renderer = if c.stale then some .software else c.renderer := by
  have hkept := screens.compose_after c
  obtain ⟨t, hrefresh, _⟩ := (compose_eq_ok ..).mp h
  have ht := refresh_after c
  rw [Step.after_of_ok hrefresh] at hkept ht
  rw [Step.after_of_ok h] at hkept
  rw [hkept.stale_eq, hkept.renderer_eq]
  unfold refresh at hrefresh
  rw [Step.run_get_bind] at hrefresh
  cases hstale : c.stale with
  | false =>
    rw [hstale] at ht
    obtain rfl : t = c := ht
    exact ⟨hstale, rfl⟩
  | true =>
    rw [hstale] at hrefresh
    obtain ⟨notice, t', hprepare, hpure⟩ := (Step.bind_eq_ok ..).mp hrefresh
    obtain ⟨_, rfl⟩ := EStateM.Result.ok.inj hpure
    obtain ⟨_, _, _, _, _, _, rfl⟩ := prepare_eq_ok hprepare
    exact ⟨rfl, rfl⟩

/-- Whatever was done with a compositor, after a completed presentation it is not stale and has a
renderer: software rendering if it was stale before, and otherwise the renderer of the latest
preparation before. -/
theorem present_renderer (arrangement : Arrangement) (gap : Nat) (before : σ)
    (history : List (Action σ)) (screens : ErrorScreens) (output : Frame → Step σ (List Notice))
    (c c' : Compositor) (s s' : σ) (notices : List Notice)
    (hc : c = (run history (new arrangement gap, before)).1)
    (h : (screens.present output).run (c, s) = .ok notices (c', s')) :
    c'.stale = false ∧ c'.renderer.isSome = true ∧
      ∀ renderer, c'.renderer = some renderer ↔
        c.stale = true ∧ renderer = .software ∨
          c.stale = false ∧ LatestFor renderer history (new arrangement gap, before) := by
  obtain ⟨f, drawn, more, hcomposed, _⟩ := (present_eq_ok ..).mp h
  obtain ⟨hready, hrenderer⟩ := compose_settles hcomposed
  have hsound : c.Sound := by
    rw [hc]
    exact run_sound history (new_sound arrangement gap)
  have hlatest (renderer : Renderer) : c.renderer = some renderer ↔
      LatestFor renderer history (new arrangement gap, before) := by
    rw [hc]
    exact run_renderer rfl renderer history
  refine ⟨hready, ?_, fun renderer => ?_⟩
  · cases hstale : c.stale with
    | false => simpa [hrenderer, hstale] using hsound.renderer_isSome hstale
    | true => simp [hrenderer, hstale]
  · rw [← hlatest, hrenderer]
    cases c.stale with
    | false => simp
    | true => simp [eq_comm]

/-- Hardware rendering was prepared for, but other arrangements came after it. -/
theorem present_renderer_rearranged :
    let screens : ErrorScreens := ⟨⟨"No BIOS", "Copy it"⟩, plainScreen 1, plainScreen 2⟩
    let output : Frame → Step Unit (List Notice) := fun _ => return []
    let history : List (Action Unit) :=
      [.prepare .openGl] ++ [.setArrangement .rightLeft, .setGap 8]
    let c := (run history (new .topBottom 0, ())).1
    c.renderer = some .openGl ∧ ∃ drawn c', (screens.present output).run (c, ()) =
      .ok drawn (c', ()) ∧ c'.stale = false ∧ c'.renderer = some .software := by
  intro screens output history c
  obtain ⟨notice, image, hprepare⟩ := exists_prepare .openGl (c := new .topBottom 0) rfl
    (show pixelBytes * (256 * 384) ≤ Size.bytesMax by decide)
  have hc : c = ⟨.rightLeft, 8, some .openGl, true, image⟩ := by
    have hrun : c = (((prepare .openGl).after (new .topBottom 0)).setArrangement .rightLeft).setGap
        8 := rfl
    rw [hrun, Step.after_of_ok hprepare]
    rfl
  have hsound : c.Sound := run_sound history (new_sound .topBottom 0)
  have hcompose : ∃ f drawn c', screens.compose.run c = .ok (f, drawn) c' :=
    exists_compose hsound (plainScreen_valid 1) (plainScreen_valid 2) (by rw [hc]; rfl)
      (show pixelBytes * (520 * 192) ≤ Size.bytesMax by decide) (by rw [hc]; rfl)
  obtain ⟨f, drawn, c', hcomposed⟩ := hcompose
  have h : (screens.present output).run (c, ()) = .ok drawn (c', ()) :=
    (present_eq_ok ..).mpr ⟨f, drawn, [], hcomposed, rfl, (List.append_nil drawn).symm⟩
  obtain ⟨hready, _, hrenderer⟩ :=
    present_renderer .topBottom 0 () history screens output c c' () () drawn rfl h
  have hstale : c.stale = true := by rw [hc]
  exact ⟨by rw [hc], drawn, c', h, hready, (hrenderer .software).mpr (.inl ⟨hstale, rfl⟩)⟩

/-- Hardware rendering was prepared for, and stays. -/
theorem present_keeps_openGl :
    let screens : ErrorScreens := ⟨⟨"No BIOS", "Copy it"⟩, plainScreen 1, plainScreen 2⟩
    let output : Frame → Step Unit (List Notice) := fun _ => return []
    let c := (run [.prepare .openGl] (new .topBottom 0, ())).1
    ∃ drawn c', (screens.present output).run (c, ()) = .ok drawn (c', ()) ∧ c'.stale = false ∧
      c'.renderer = some .openGl := by
  intro screens output c
  obtain ⟨notice, image, hprepare⟩ := exists_prepare .openGl (c := new .topBottom 0) rfl
    (show pixelBytes * (256 * 384) ≤ Size.bytesMax by decide)
  have hc : c = ⟨.topBottom, 0, some .openGl, false, image⟩ := Step.after_of_ok hprepare
  have hsound : c.Sound := run_sound [.prepare .openGl] (new_sound .topBottom 0)
  have hcompose : ∃ f drawn c', screens.compose.run c = .ok (f, drawn) c' :=
    exists_compose hsound (plainScreen_valid 1) (plainScreen_valid 2) (by rw [hc]; rfl)
      (show pixelBytes * (256 * 384) ≤ Size.bytesMax by decide) (by rw [hc]; rfl)
  obtain ⟨f, drawn, c', hcomposed⟩ := hcompose
  obtain ⟨hready, hrenderer⟩ := compose_settles hcomposed
  rw [hc] at hrenderer
  exact ⟨drawn, c', (present_eq_ok ..).mpr
    ⟨f, drawn, [], hcomposed, rfl, (List.append_nil drawn).symm⟩, hready, hrenderer⟩

end TwinScreen.ErrorScreens
