import TwinScreen.ErrorScreens
import TwinScreen.Proofs.Pixmap.Copy

/-!
# What becomes of a compositor

Whatever is done with a compositor, in any order and with any success, its image stays a valid
pixmap, and while it is not stale the image has the size of its arrangement (`Sound`,
`run_sound`).
-/
namespace TwinScreen.Compositor

/-- The image is valid. A compositor that is not stale was prepared for a renderer and has an image
of the size that its arrangement and its gap ask for. -/
structure Sound (c : Compositor) : Prop where
  image_valid : c.image.Valid
  size_eq : c.stale = false → c.arrangement.size c.gap = .ok (c.image.width, c.image.height)
  renderer_isSome : c.stale = false → c.renderer.isSome = true

theorem new_sound (arrangement : Arrangement) (gap : Nat) : (new arrangement gap).Sound where
  image_valid := ⟨rfl, Nat.zero_le _⟩
  size_eq := by simp [new]
  renderer_isSome := by simp [new]

@[simp] theorem setArrangement_arrangement (c : Compositor) (arrangement : Arrangement) :
    (c.setArrangement arrangement).arrangement = arrangement := by
  unfold setArrangement
  split
  · rename_i h
    exact h.symm
  · rfl

@[simp] theorem setArrangement_gap (c : Compositor) (arrangement : Arrangement) :
    (c.setArrangement arrangement).gap = c.gap := by
  unfold setArrangement
  split <;> rfl

@[simp] theorem setGap_arrangement (c : Compositor) (gap : Nat) :
    (c.setGap gap).arrangement = c.arrangement := by
  unfold setGap
  split <;> rfl

@[simp] theorem setGap_gap (c : Compositor) (gap : Nat) : (c.setGap gap).gap = gap := by
  unfold setGap
  split
  · rename_i h
    exact h.symm
  · rfl

@[simp] theorem setArrangement_renderer (c : Compositor) (arrangement : Arrangement) :
    (c.setArrangement arrangement).renderer = c.renderer := by
  unfold setArrangement
  split <;> rfl

@[simp] theorem setGap_renderer (c : Compositor) (gap : Nat) :
    (c.setGap gap).renderer = c.renderer := by
  unfold setGap
  split <;> rfl

/-- A change of the arrangement makes the image stale rather than wrong. -/
theorem setArrangement_sound {c : Compositor} (h : c.Sound) (arrangement : Arrangement) :
    (c.setArrangement arrangement).Sound := by
  unfold setArrangement
  split
  · exact h
  · exact ⟨h.image_valid, by simp, by simp⟩

theorem setGap_sound {c : Compositor} (h : c.Sound) (gap : Nat) : (c.setGap gap).Sound := by
  unfold setGap
  split
  · exact h
  · exact ⟨h.image_valid, by simp, by simp⟩

/-! ## Preparing -/

/-- Preparing either makes the new image or leaves everything as it was. -/
theorem run_prepare (renderer : Renderer) (c : Compositor) :
    (prepare renderer).run c =
      match c.arrangement.size c.gap with
      | .error e => .error e c
      | .ok (width, height) =>
          match Pixmap.create width height clearColor with
          | .error e => .error e c
          | .ok image =>
              .ok (.prepared c.arrangement renderer width height c.gap)
                { c with image, renderer := some renderer, stale := false } := by
  unfold prepare
  rw [Step.run_get_bind]
  cases c.arrangement.size c.gap with
  | error e => rfl
  | ok size =>
    rw [Step.run_bind_of_ok (Step.run_lift_ok size c)]
    dsimp only
    cases Pixmap.create size.1 size.2 clearColor <;> rfl

/-- A prepared compositor has a new image of the clear color and is not stale. -/
theorem prepare_eq_ok {renderer : Renderer} {c c' : Compositor} {notice : Notice}
    (h : (prepare renderer).run c = .ok notice c') :
    ∃ width height image, c.arrangement.size c.gap = .ok (width, height) ∧
      Pixmap.create width height clearColor = .ok image ∧
      notice = .prepared c.arrangement renderer width height c.gap ∧
      c' = { c with image, renderer := some renderer, stale := false } := by
  rw [run_prepare] at h
  split at h
  · cases h
  · rename_i width height hsize
    split at h
    · cases h
    · rename_i image himage
      obtain ⟨rfl, rfl⟩ := EStateM.Result.ok.inj h
      exact ⟨width, height, image, hsize, himage, rfl, rfl⟩

/-- A compositor that could not be prepared is as before. -/
theorem prepare_eq_error {renderer : Renderer} {c c' : Compositor} {e : Fault}
    (h : (prepare renderer).run c = .error e c') : c' = c := by
  rw [run_prepare] at h
  split at h
  · exact (EStateM.Result.error.inj h).2.symm
  · split at h
    · exact (EStateM.Result.error.inj h).2.symm
    · cases h

/-- Preparing succeeds if a buffer can hold the image. -/
theorem exists_prepare (renderer : Renderer) {c : Compositor} {width height : Nat}
    (hsize : c.arrangement.size c.gap = .ok (width, height))
    (hroom : pixelBytes * (width * height) ≤ Size.bytesMax) :
    ∃ notice image, (prepare renderer).run c =
      .ok notice { c with image, renderer := some renderer, stale := false } := by
  have hprepare := run_prepare renderer c
  rw [hsize] at hprepare
  dsimp only at hprepare
  rw [(Pixmap.create_eq_ok ..).mpr ⟨hroom, rfl⟩] at hprepare
  exact ⟨_, _, hprepare⟩

theorem prepared_sound {renderer : Renderer} {c c' : Compositor} {notice : Notice}
    (h : (prepare renderer).run c = .ok notice c') : c'.Sound := by
  obtain ⟨width, height, image, hsize, himage, _, rfl⟩ := prepare_eq_ok h
  obtain ⟨hvalid, rfl, rfl⟩ := Pixmap.valid_of_create himage
  exact ⟨hvalid, fun _ => hsize, fun _ => rfl⟩

theorem prepare_preserves (renderer : Renderer) : Step.Preserves Sound (prepare renderer) := by
  intro c h
  cases hrun : (prepare renderer).run c with
  | ok notice c' =>
    rw [Step.after_of_ok hrun]
    exact prepared_sound hrun
  | error e c' =>
    rw [Step.after_of_error hrun, prepare_eq_error hrun]
    exact h

/-! ## Drawing -/

/-- Two compositors differ in the pixels of their images at most. -/
structure SameSetting (c c' : Compositor) : Prop where
  arrangement_eq : c'.arrangement = c.arrangement
  gap_eq : c'.gap = c.gap
  renderer_eq : c'.renderer = c.renderer
  stale_eq : c'.stale = c.stale
  shape : c.image.SameShape c'.image

theorem SameSetting.refl (c : Compositor) : c.SameSetting c := ⟨rfl, rfl, rfl, rfl, .refl c.image⟩

theorem SameSetting.trans {c c' c'' : Compositor} (h : c.SameSetting c')
    (h' : c'.SameSetting c'') : c.SameSetting c'' where
  arrangement_eq := h'.arrangement_eq.trans h.arrangement_eq
  gap_eq := h'.gap_eq.trans h.gap_eq
  renderer_eq := h'.renderer_eq.trans h.renderer_eq
  stale_eq := h'.stale_eq.trans h.stale_eq
  shape := h.shape.trans h'.shape

/-- Pixels do not matter for soundness, as long as the image stays valid. -/
theorem SameSetting.sound {c c' : Compositor} (h : c.SameSetting c') (hc : c.Sound) : c'.Sound where
  image_valid := h.shape.valid hc.image_valid
  size_eq := by
    rw [h.stale_eq, h.arrangement_eq, h.gap_eq, h.shape.width_eq, h.shape.height_eq]
    exact hc.size_eq
  renderer_isSome := by
    rw [h.stale_eq, h.renderer_eq]
    exact hc.renderer_isSome

/-- A step on the image that keeps its shape keeps all that the compositor is set to. -/
theorem onImage_preserves {step : Step Pixmap Unit} (c : Compositor)
    (h : Step.Preserves c.image.SameShape step) : Step.Preserves c.SameSetting (onImage step) :=
  h.within (fun _ ht => ht.shape) fun _ _ ht himage =>
    ⟨ht.arrangement_eq, ht.gap_eq, ht.renderer_eq, ht.stale_eq, himage⟩

theorem clear_preserves (c : Compositor) : Step.Preserves c.SameSetting clear :=
  onImage_preserves c fun p hp => hp.trans (p.filled_sameShape clearColor)

theorem place_preserves (c : Compositor) (screen : Pixmap) (corner : Option (Nat × Nat)) :
    Step.Preserves c.SameSetting (place screen corner) := by
  cases corner with
  | none => exact .pure ()
  | some corner => exact onImage_preserves c (Pixmap.copy_preserves c.image screen _ _)

/-- Combining screens changes pixels at most. -/
theorem combine_preserves (c : Compositor) (top bottom : Pixmap) :
    Step.Preserves c.SameSetting (combine top bottom) := by
  unfold combine
  refine Step.Preserves.get.bind fun _ => ?_
  refine .check _ _ (.check _ _ (.check _ _ ?_))
  exact (Step.Preserves.lift _).bind fun origins =>
    (place_preserves c top origins.top).bind fun _ => place_preserves c bottom origins.bottom

/-- A step that only draws keeps what does not depend on the pixels. -/
theorem preserves_of_sameSetting {α : Type} {P : Compositor → Prop} {step : Step Compositor α}
    (hP : ∀ c c' : Compositor, c.SameSetting c' → P c → P c')
    (h : ∀ c : Compositor, Step.Preserves c.SameSetting step) : Step.Preserves P step :=
  fun c hc => hP c _ (h c c (.refl c)) hc

end TwinScreen.Compositor

namespace TwinScreen.ErrorScreens

variable {P : Compositor → Prop}

/-- A refreshed compositor keeps what preparing keeps. -/
theorem refresh_preserves (hprepare : Step.Preserves P (Compositor.prepare .software)) :
    Step.Preserves P refresh :=
  Step.Preserves.get.bind fun _ => .ite _ (hprepare.bind fun notice => .pure [notice]) (.pure [])

/-- What follows the preparation in composing keeps what does not depend on the pixels. -/
theorem drawing_preserves (hP : ∀ c c' : Compositor, c.SameSetting c' → P c → P c')
    (screens : ErrorScreens) (notices : List Notice) :
    Step.Preserves P (do
      Compositor.clear
      Compositor.combine screens.top screens.bottom
      return (← Frame.ofPixmap (← get).image, notices) :
        Step Compositor (Frame × List Notice)) := by
  have hclear := Compositor.preserves_of_sameSetting hP Compositor.clear_preserves
  have hcombine := Compositor.preserves_of_sameSetting hP fun c =>
    Compositor.combine_preserves c screens.top screens.bottom
  refine hclear.bind fun _ => hcombine.bind fun _ => Step.Preserves.get.bind fun c => ?_
  exact (Step.Preserves.lift _).bind fun frame => .pure _

/-- Composing keeps what preparing keeps, unless it depends on the pixels. -/
theorem compose_preserves (hprepare : Step.Preserves P (Compositor.prepare .software))
    (hP : ∀ c c' : Compositor, c.SameSetting c' → P c → P c') (screens : ErrorScreens) :
    Step.Preserves P screens.compose :=
  (refresh_preserves hprepare).bind (drawing_preserves hP screens)

theorem refresh_after (c : Compositor) :
    refresh.after c = if c.stale then (Compositor.prepare .software).after c else c := by
  unfold refresh Step.after
  rw [Step.run_get_bind]
  cases c.stale with
  | false => rfl
  | true => exact Step.after_bind_pure (Compositor.prepare .software) (fun notice => [notice]) c

/-- What follows the preparation in composing only draws. -/
theorem compose_after (screens : ErrorScreens) (c : Compositor) :
    (refresh.after c).SameSetting (screens.compose.after c) := by
  unfold compose
  cases hrefresh : refresh.run c with
  | ok notices t =>
    rw [Step.after_of_ok hrefresh, Step.after_bind_of_ok hrefresh]
    exact drawing_preserves (fun _ _ h ht => ht.trans h) screens notices t (.refl t)
  | error e t =>
    rw [Step.after_of_error hrefresh, Step.after_bind_of_error hrefresh]
    exact .refl t

/-- A presentation whose frame is composed leaves what its output does with the frame. -/
theorem present_after_of_ok {σ : Type} {screens : ErrorScreens} {c c' : Compositor} {f : Frame}
    {drawn : List Notice} (h : screens.compose.run c = .ok (f, drawn) c')
    (output : Frame → Step σ (List Notice)) (s : σ) :
    (screens.present output).after (c, s) = (c', (output f).after s) := by
  have hdrawn : (screens.compose.within Prod.fst fun s c => (c, s.2)).run (c, s) =
      .ok (f, drawn) (c', s) := (Step.within_eq_ok ..).mpr ⟨c', h, rfl⟩
  unfold present
  rw [Step.after_bind_of_ok hdrawn]
  dsimp only
  rw [Step.after_bind_pure, Step.after_within]

/-- A presentation whose frame cannot be composed ends without its output. -/
theorem present_of_error {σ : Type} {screens : ErrorScreens} {c c' : Compositor} {e : Fault}
    (h : screens.compose.run c = .error e c') (output : Frame → Step σ (List Notice)) (s : σ) :
    (screens.present output).run (c, s) = .error e (c', s) := by
  have hfailed : (screens.compose.within Prod.fst fun s c => (c, s.2)).run (c, s) =
      .error e (c', s) := by
    rw [Step.run_within, h]
  unfold present
  exact Step.run_bind_of_error hfailed _

/-- An output has no part in what a presentation leaves of the compositor. -/
theorem present_after {σ : Type} (screens : ErrorScreens) (output : Frame → Step σ (List Notice))
    (s : Compositor × σ) :
    ((screens.present output).after s).1 = screens.compose.after s.1 := by
  cases hcompose : screens.compose.run s.1 with
  | ok drawn c => rw [present_after_of_ok hcompose, Step.after_of_ok hcompose]
  | error e c =>
    rw [Step.after_of_error (present_of_error hcompose output s.2), Step.after_of_error hcompose]

theorem present_preserves {σ : Type} {screens : ErrorScreens}
    (hcompose : Step.Preserves P screens.compose) (output : Frame → Step σ (List Notice)) :
    Step.Preserves (fun s : Compositor × σ => P s.1) (screens.present output) := by
  intro s h
  rw [present_after]
  exact hcompose s.1 h

end TwinScreen.ErrorScreens

namespace TwinScreen.Compositor

/-! ## Histories -/

/-- What is done with a compositor and with the output that its frames are sent to. -/
inductive Action (σ : Type) where
  | setArrangement (arrangement : Arrangement)
  | setGap (gap : Nat)
  | prepare (renderer : Renderer)
  | clear
  | combine (top bottom : Pixmap)
  | present (screens : ErrorScreens) (output : Frame → Step σ (List Notice))

/-- What an action leaves, by success or by failure. -/
def Action.after {σ : Type} : Action σ → Compositor × σ → Compositor × σ
  | .setArrangement arrangement, s => (s.1.setArrangement arrangement, s.2)
  | .setGap gap, s => (s.1.setGap gap, s.2)
  | .prepare renderer, s => ((Compositor.prepare renderer).after s.1, s.2)
  | .clear, s => (Compositor.clear.after s.1, s.2)
  | .combine top bottom, s => ((Compositor.combine top bottom).after s.1, s.2)
  | .present screens output, s => (screens.present output).after s

def run {σ : Type} (history : List (Action σ)) (s : Compositor × σ) : Compositor × σ :=
  history.foldl (fun s action => action.after s) s

/-- Every action keeps the compositor sound, also one that fails. -/
theorem Action.after_sound {σ : Type} (action : Action σ) {s : Compositor × σ} (h : s.1.Sound) :
    (action.after s).1.Sound := by
  cases action with
  | setArrangement arrangement => exact setArrangement_sound h arrangement
  | setGap gap => exact setGap_sound h gap
  | prepare renderer => exact prepare_preserves renderer s.1 h
  | clear => exact preserves_of_sameSetting (fun _ _ h => h.sound) clear_preserves s.1 h
  | combine top bottom =>
    exact preserves_of_sameSetting (fun _ _ h => h.sound)
      (fun c => combine_preserves c top bottom) s.1 h
  | present screens output =>
    have hcompose := screens.compose_preserves (prepare_preserves .software) fun _ _ h => h.sound
    exact ErrorScreens.present_preserves hcompose output s h

/-- Every history keeps it sound, by induction on the actions. -/
theorem run_sound {σ : Type} (history : List (Action σ)) {s : Compositor × σ} (h : s.1.Sound) :
    (run history s).1.Sound := by
  induction history generalizing s with
  | nil => exact h
  | cons action more ih => exact ih (action.after_sound h)

/-- Every arrangement and every gap can be set, whatever was done before. -/
theorem run_set_layout {σ : Type} (history : List (Action σ)) (arrangement : Arrangement)
    (gap : Nat) (s : Compositor × σ) :
    (run (history ++ [.setArrangement arrangement, .setGap gap]) s).1.arrangement = arrangement ∧
      (run (history ++ [.setArrangement arrangement, .setGap gap]) s).1.gap = gap := by
  simp [run, Action.after]

end TwinScreen.Compositor
