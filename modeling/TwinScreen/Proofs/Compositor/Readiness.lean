import Mathlib.Data.List.Induction
import TwinScreen.Proofs.Compositor.Picture

/-!
# When a compositor is ready

A compositor is ready for screens exactly when it has been prepared and neither its arrangement nor
its gap has been changed since. A ready compositor refuses nothing but screens of another size, as
long as the corners of the screens are sizes.
-/
namespace TwinScreen.Compositor

variable {σ : Type}

/-! ## Preparations and changes -/

/-- The compositor has been prepared by the action, either by itself or for a presentation. -/
def Action.Prepares (c : Compositor) : Action σ → Prop
  | .prepare renderer => ∃ notice c', (Compositor.prepare renderer).run c = .ok notice c'
  | .present _ _ =>
      c.stale = true ∧ ∃ notice c', (Compositor.prepare .software).run c = .ok notice c'
  | .setArrangement _ | .setGap _ | .clear | .combine _ _ => False

/-- The action sets another arrangement or another gap than the compositor had. -/
def Action.Changes (c : Compositor) : Action σ → Prop
  | .setArrangement arrangement => arrangement ≠ c.arrangement
  | .setGap gap => gap ≠ c.gap
  | .prepare _ | .clear | .combine _ _ | .present _ _ => False

/-- The action at position `i` of a history finds the compositor `c`. -/
def Finds (history : List (Action σ)) (s : Compositor × σ) (i : Nat) (action : Action σ)
    (c : Compositor) : Prop :=
  history[i]? = some action ∧ (run (history.take i) s).1 = c

/-- At some point of a history the compositor was prepared, and no later action has changed its
arrangement or its gap. -/
def Prepared (history : List (Action σ)) (s : Compositor × σ) : Prop :=
  ∃ i action c, Finds history s i action c ∧ action.Prepares c ∧
    ∀ j later c', i < j → Finds history s j later c' → ¬ later.Changes c'

/-- A compositor is fresh behind an attempt to prepare it if the attempt succeeded or was not
needed. -/
theorem prepare_stale (renderer : Renderer) (c : Compositor) :
    ((prepare renderer).after c).stale = false ↔
      (∃ notice c', (prepare renderer).run c = .ok notice c') ∨ c.stale = false := by
  cases hrun : (prepare renderer).run c with
  | ok notice c' =>
    rw [Step.after_of_ok hrun]
    obtain ⟨_, _, _, _, _, _, rfl⟩ := prepare_eq_ok hrun
    simp
  | error e c' =>
    rw [Step.after_of_error hrun, prepare_eq_error hrun]
    simp

theorem compose_stale (screens : ErrorScreens) (c : Compositor) :
    (screens.compose.after c).stale = false ↔
      c.stale = true ∧ (∃ notice c', (prepare .software).run c = .ok notice c') ∨
        c.stale = false := by
  rw [(screens.compose_after c).stale_eq, ErrorScreens.refresh_after]
  cases hstale : c.stale with
  | false => simp [hstale]
  | true => simp [prepare_stale, hstale]

/-- An action leaves the compositor ready if it prepares it, or if it was ready and is not
changed. -/
theorem Action.after_stale (action : Action σ) (s : Compositor × σ) :
    (action.after s).1.stale = false ↔
      action.Prepares s.1 ∨ s.1.stale = false ∧ ¬ action.Changes s.1 := by
  cases action with
  | setArrangement arrangement =>
    by_cases h : arrangement = s.1.arrangement <;>
      simp [Action.after, Prepares, Changes, Compositor.setArrangement, h]
  | setGap gap =>
    by_cases h : gap = s.1.gap <;>
      simp [Action.after, Prepares, Changes, Compositor.setGap, h]
  | prepare renderer => simp [Action.after, Prepares, Changes, prepare_stale]
  | clear =>
    have hkept := clear_preserves s.1 s.1 (.refl _)
    simp [Action.after, Prepares, Changes, hkept.stale_eq]
  | combine top bottom =>
    have hkept := combine_preserves s.1 top bottom s.1 (.refl _)
    simp [Action.after, Prepares, Changes, hkept.stale_eq]
  | present screens output =>
    simp [Action.after, Prepares, Changes, ErrorScreens.present_after, compose_stale]

/-! ## Histories -/

theorem run_concat (history : List (Action σ)) (action : Action σ) (s : Compositor × σ) :
    run (history ++ [action]) s = action.after (run history s) := by
  simp [run]

theorem Finds.lt_length {history : List (Action σ)} {s : Compositor × σ} {i : Nat}
    {action : Action σ} {c : Compositor} (h : Finds history s i action c) : i < history.length :=
  (List.getElem?_eq_some_iff.mp h.1).1

theorem finds_concat (history : List (Action σ)) (last : Action σ) (s : Compositor × σ) (i : Nat)
    (action : Action σ) (c : Compositor) :
    Finds (history ++ [last]) s i action c ↔
      Finds history s i action c ∨
        i = history.length ∧ action = last ∧ (run history s).1 = c := by
  rcases Nat.lt_trichotomy i history.length with hlt | rfl | hgt
  · unfold Finds
    rw [List.getElem?_append_left hlt, List.take_append_of_le_length (by omega)]
    simp [show i ≠ history.length by omega]
  · simp [Finds, eq_comm]
  · have hold : ¬ Finds history s i action c := fun h => Nat.lt_asymm h.lt_length hgt
    have hnew : ¬ Finds (history ++ [last]) s i action c := by
      intro h
      have hi := h.lt_length
      rw [List.length_append, List.length_singleton] at hi
      omega
    simp [hold, hnew, show i ≠ history.length by omega]

/-- At some point of a history the first thing happened, and the second has not happened since. -/
def Since (P Q : Compositor → Action σ → Prop) (history : List (Action σ)) (s : Compositor × σ) :
    Prop :=
  ∃ i action c, Finds history s i action c ∧ P c action ∧
    ∀ j later c', i < j → Finds history s j later c' → ¬ Q c' later

theorem not_since_nil (P Q : Compositor → Action σ → Prop) (s : Compositor × σ) :
    ¬ Since P Q [] s := by
  rintro ⟨i, action, c, h, _⟩
  exact Nat.not_lt_zero _ h.lt_length

/-- What has happened since is decided by the last action, and by the history before it if that
action is neither thing. -/
theorem since_concat (P Q : Compositor → Action σ → Prop) (history : List (Action σ))
    (last : Action σ) (s : Compositor × σ) :
    Since P Q (history ++ [last]) s ↔
      P (run history s).1 last ∨ Since P Q history s ∧ ¬ Q (run history s).1 last := by
  have hlast : Finds (history ++ [last]) s history.length last (run history s).1 :=
    (finds_concat ..).mpr (.inr ⟨rfl, rfl, rfl⟩)
  constructor
  · rintro ⟨i, action, c, hfinds, hP, hlater⟩
    rcases (finds_concat ..).mp hfinds with hearlier | ⟨_, rfl, rfl⟩
    · refine .inr ⟨⟨i, action, c, hearlier, hP, ?_⟩, ?_⟩
      · intro j later c' hij hj
        exact hlater j later c' hij ((finds_concat ..).mpr (.inl hj))
      · exact hlater _ _ _ hearlier.lt_length hlast
    · exact .inl hP
  · rintro (hP | ⟨⟨i, action, c, hfinds, hP, hlater⟩, hkept⟩)
    · refine ⟨_, last, _, hlast, hP, ?_⟩
      intro j later c' hij hj
      have hj := hj.lt_length
      rw [List.length_append, List.length_singleton] at hj
      omega
    · refine ⟨i, action, c, (finds_concat ..).mpr (.inl hfinds), hP, ?_⟩
      intro j later c' hij hj
      rcases (finds_concat ..).mp hj with hearlier | ⟨_, rfl, rfl⟩
      · exact hlater j later c' hij hearlier
      · exact hkept

/-- A compositor is prepared since its latest change. -/
theorem prepared_concat (history : List (Action σ)) (last : Action σ) (s : Compositor × σ) :
    Prepared (history ++ [last]) s ↔
      last.Prepares (run history s).1 ∨
        Prepared history s ∧ ¬ last.Changes (run history s).1 :=
  since_concat Action.Prepares Action.Changes history last s

/-- Behind a stale start, a compositor is fresh just when it has been prepared since the last
change. -/
theorem run_stale {s : Compositor × σ} (h : s.1.stale = true) (history : List (Action σ)) :
    (run history s).1.stale = false ↔ Prepared history s := by
  induction history using List.reverseRecOn with
  | nil =>
    have hnever : ¬ Prepared [] s := not_since_nil Action.Prepares Action.Changes s
    simp [run, h, hnever]
  | append_singleton history action ih =>
    rw [run_concat, Action.after_stale, prepared_concat, ih]

/-! ## Refusals -/

/-- Combining checks the compositor first, then the top screen, then the bottom screen. -/
theorem run_combine (top bottom : Pixmap) (c : Compositor) :
    (combine top bottom).run c =
      if c.stale then .error .unprepared c
      else if !top.isScreen then .error .topScreenSize c
      else if !bottom.isScreen then .error .bottomScreenSize c
      else (do
        let origins ← c.arrangement.origins c.gap
        place top origins.top
        place bottom origins.bottom : Step Compositor Unit).run c := by
  unfold combine
  rw [Step.run_get_bind]
  cases c.stale <;> cases top.isScreen <;> cases bottom.isScreen <;> rfl

/-- A stale compositor and a screen of another size are refused before anything is copied. -/
theorem combine_of_refused {c : Compositor} {top bottom : Pixmap}
    (h : c.stale = true ∨ top.isScreen = false ∨ bottom.isScreen = false) :
    ∃ e, (combine top bottom).run c = .error e c ∧
      e ∈ [Fault.unprepared, Fault.topScreenSize, Fault.bottomScreenSize] := by
  rw [run_combine]
  by_cases hstale : c.stale = true
  · exact ⟨.unprepared, by rw [if_pos hstale], by simp⟩
  · by_cases htop : top.isScreen = true
    · have hbottom : bottom.isScreen = false := by simpa [hstale, htop] using h
      exact ⟨.bottomScreenSize, by simp [hstale, htop, hbottom], by simp⟩
    · exact ⟨.topScreenSize, by simp [hstale, htop], by simp⟩

/-- So is a gap that leaves no room for a screen beside it, also where only one screen is shown. -/
theorem combine_of_wide {c : Compositor} {top bottom : Pixmap} (hstale : c.stale = false)
    (htop : top.isScreen = true) (hbottom : bottom.isScreen = true)
    (hgap : Size.bound ≤ c.gap + screenWidth) :
    (combine top bottom).run c = .error .overflow c := by
  rw [run_combine, hstale, htop, hbottom, c.arrangement.origins_of_wide hgap]
  rfl

/-- With a gap that leaves room for a screen beside it, there is no other reason to refuse. -/
theorem combine_of_not_refused {c : Compositor} {top bottom : Pixmap} (hc : c.Sound)
    (hgap : c.gap + screenWidth < Size.bound) (htop : top.Valid) (hbottom : bottom.Valid)
    (h : ¬ (c.stale = true ∨ top.isScreen = false ∨ bottom.isScreen = false)) :
    ∃ c', (combine top bottom).run c = .ok () c' := by
  simp only [not_or, Bool.not_eq_true, Bool.not_eq_false] at h
  obtain ⟨hstale, htopSize, hbottomSize⟩ := h
  obtain ⟨origins, horigins⟩ := c.arrangement.exists_origins hgap
  exact exists_combine ⟨htop, htopSize⟩ ⟨hbottom, hbottomSize⟩ hc hstale horigins

/-- Whatever was done with a compositor, it is not stale exactly if it has been prepared and not
changed since. It then has a renderer and an image of the size that its arrangement asks for, and
it refuses screens of another size and nothing else, before anything is copied. -/
theorem readiness (arrangement : Arrangement) (gap : Nat) (before : σ)
    (history : List (Action σ)) (c : Compositor)
    (hc : c = (run history (new arrangement gap, before)).1) :
    (c.stale = false ↔ Prepared history (new arrangement gap, before)) ∧
      (c.stale = false → c.renderer.isSome = true ∧
        c.arrangement.size c.gap = .ok (c.image.width, c.image.height) ∧
        c.image.bytes.size = c.image.width * c.image.height * pixelBytes) ∧
      (c.gap ≤ Size.bound - 1 - 256 → ∀ top bottom : Pixmap, top.Valid → bottom.Valid →
        ((∃ e c', (combine top bottom).run c = .error e c') ↔
          c.stale = true ∨ (top.width, top.height) ≠ (screenWidth, screenHeight) ∨
            (bottom.width, bottom.height) ≠ (screenWidth, screenHeight)) ∧
        ∀ e c', (combine top bottom).run c = .error e c' →
          c' = c ∧ e ∈ [Fault.unprepared, Fault.topScreenSize, Fault.bottomScreenSize]) := by
  have hsound : c.Sound := by
    rw [hc]
    exact run_sound history (new_sound arrangement gap)
  have hsize (p : Pixmap) : (p.width, p.height) ≠ (screenWidth, screenHeight) ↔
      p.isScreen = false := by
    rw [← Bool.not_eq_true, Pixmap.isScreen_iff, ne_eq, Prod.mk.injEq]
  refine ⟨?_, ?_, ?_⟩
  · rw [hc]
    exact run_stale rfl history
  · intro hstale
    exact ⟨hsound.renderer_isSome hstale, hsound.size_eq hstale, hsound.image_valid.size_eq⟩
  · intro hgap top bottom htop hbottom
    have hroom : c.gap + screenWidth < Size.bound := by
      unfold screenWidth
      unfold Size.bound at hgap ⊢
      omega
    rw [hsize, hsize]
    by_cases h : c.stale = true ∨ top.isScreen = false ∨ bottom.isScreen = false
    · obtain ⟨e, hrun, he⟩ := combine_of_refused h
      refine ⟨⟨fun _ => h, fun _ => ⟨e, c, hrun⟩⟩, ?_⟩
      intro e' c' hrun'
      rw [hrun] at hrun'
      obtain ⟨rfl, rfl⟩ := EStateM.Result.error.inj hrun'
      exact ⟨rfl, he⟩
    · obtain ⟨c', hrun⟩ := combine_of_not_refused hsound hroom htop hbottom h
      simp [hrun, h]

/-- A presentation that ends in a fault and two changes come before the compositor is prepared for
hardware rendering. Then it takes screens, but not an image of no pixels. -/
theorem readiness_after_changes :
    let screens : ErrorScreens :=
      ⟨⟨"No BIOS", "Copy it"⟩, ErrorScreens.plainScreen 1, ErrorScreens.plainScreen 2⟩
    let changes : List (Action Unit) :=
      [.present screens fun _ => throw .outOfRange] ++ [.setArrangement .rightLeft, .setGap 8]
    let history := changes ++ [.prepare .openGl]
    ∃ c, c = (run history (new .topBottom 0, ())).1 ∧ c.stale = false ∧
      (∃ c', (combine screens.top screens.bottom).run c = .ok () c') ∧
      ∃ e, (combine screens.top ⟨0, 0, #[]⟩).run c = .error e c := by
  intro screens changes history
  obtain ⟨s, hs⟩ : ∃ s, s = run changes (new .topBottom 0, ()) := ⟨_, rfl⟩
  obtain ⟨c, hc⟩ : ∃ c, c = (run history (new .topBottom 0, ())).1 := ⟨_, rfl⟩
  have hlayout : s.1.arrangement = .rightLeft ∧ s.1.gap = 8 := by
    rw [hs]
    exact run_set_layout _ .rightLeft 8 _
  have hsize : s.1.arrangement.size s.1.gap = .ok (520, 192) := by
    rw [hlayout.1, hlayout.2]
    rfl
  obtain ⟨notice, image, hprepare⟩ := exists_prepare .openGl hsize (by decide)
  have hgap : c.gap = 8 := by
    rw [hc, run_concat, ← hs, Action.after, Step.after_of_ok hprepare]
    exact hlayout.2
  have hready := readiness .topBottom 0 () history c hc
  have hstale : c.stale = false := by
    rw [hs] at hprepare
    exact hready.1.mpr ((prepared_concat ..).mpr (.inl ⟨_, _, hprepare⟩))
  have hcombine := hready.2.2 (by rw [hgap]; decide) screens.top
  have htop : screens.top.Valid := (ErrorScreens.plainScreen_valid 1).valid
  have hbottom : screens.bottom.Valid := (ErrorScreens.plainScreen_valid 2).valid
  refine ⟨c, hc, hstale, ?_, ?_⟩
  · cases hrun : (combine screens.top screens.bottom).run c with
    | ok _ c' => exact ⟨c', rfl⟩
    | error e c' =>
      have hrefused := (hcombine screens.bottom htop hbottom).1.mp ⟨e, c', hrun⟩
      simp [hstale, screens, ErrorScreens.plainScreen] at hrefused
  · have hmisfit := hcombine ⟨0, 0, #[]⟩ htop ⟨rfl, Nat.zero_le _⟩
    obtain ⟨e, c', hrun⟩ := hmisfit.1.mpr (.inr (.inr (by decide)))
    obtain ⟨rfl, _⟩ := hmisfit.2 e c' hrun
    exact ⟨e, hrun⟩

end TwinScreen.Compositor
