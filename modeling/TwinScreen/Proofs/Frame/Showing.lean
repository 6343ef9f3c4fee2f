import TwinScreen.Proofs.Compositor.Picture
import TwinScreen.Proofs.Frame.Recording
import TwinScreen.Window

/-!
# What a window shows

The surface of a window takes a frame of its own size row by row and leaves out any other. The
frames of a compositor have the size that its window is made for, so none of them is left out, and
the window shows what a recorder keeps of the same screens.
-/
namespace TwinScreen

namespace Surface

variable {f : Frame} {surface : Surface}

/-! ## One frame on a surface -/

/-- Rows that fill the surface exactly leave the picture in it. -/
theorem run_copyRows (hf : f.Readable) (hwidth : 0 < f.width * pixelBytes)
    (hsize : surface.size = f.height * (f.width * pixelBytes)) :
    (copyRows f (f.width * pixelBytes)).run surface = .ok () f.picture.bytes := by
  have hround : ∀ k < f.height, ∀ s : Surface,
      s.size = surface.size ∧ BeginsWith s f.pixels (f.width * pixelBytes) k →
        ∃ s', (do
            let row ← f.row k
            modify fun s => writeBytes s (k * (f.width * pixelBytes)) row :
              Step Surface Unit).run s = .ok () s' ∧
          s'.size = surface.size ∧ BeginsWith s' f.pixels (f.width * pixelBytes) (k + 1) := by
    rintro k hk s ⟨hkept, hbegins⟩
    have hroom : (k + 1) * (f.width * pixelBytes) ≤ s.size := by
      rw [hkept, hsize]
      exact Nat.mul_le_mul_right _ hk
    rw [hf.row_eq hk, Step.run_bind_of_ok (Step.run_lift_ok ..)]
    exact ⟨_, rfl, (size_writeBytes ..).trans hkept,
      hbegins.writeBytes (hf.length_pixels hk) hroom⟩
  obtain ⟨s, hrun, hkept, hbegins⟩ := Step.exists_forM
    (fun k s => s.size = surface.size ∧ BeginsWith s f.pixels (f.width * pixelBytes) k) hround
    ⟨rfl, .zero ..⟩
  have hpicture : s = f.picture.bytes := by
    unfold Frame.picture
    rw [← hbegins.toList_eq (hkept.trans hsize)]
  unfold copyRows
  rw [Step.run_get_bind, hsize, Nat.mul_div_cancel _ hwidth, hrun, hpicture]

/-- A frame that fills the surface is shown. -/
theorem run_present (hf : f.Readable) (hstorable : f.Storable) (hwidth : 0 < f.width)
    (hsize : surface.size = f.width * f.height * pixelBytes) :
    (present f).run surface = .ok [] f.picture.bytes := by
  have htotal : f.width * pixelBytes * f.height = surface.size := by
    rw [hsize, Nat.mul_right_comm]
  have hroom : f.width * pixelBytes * f.height < Size.bound := by
    have hmax := hstorable.size_le
    rw [Nat.mul_comm, ← hsize, ← htotal] at hmax
    unfold Size.bytesMax at hmax
    unfold Size.bound
    omega
  have hrow : 0 < f.width * pixelBytes := Nat.mul_pos hwidth (by decide)
  unfold present
  rw [Step.run_get_bind, Size.mul_of_lt hstorable.stride_lt,
    Step.run_bind_of_ok (Step.run_lift_ok ..), Size.mul_of_lt hroom,
    Step.run_bind_of_ok (Step.run_lift_ok ..), if_neg (by simp [htotal]), if_neg (by omega),
    Step.run_bind_of_ok (run_copyRows hf hrow (by rw [← htotal, Nat.mul_comm]))]
  rfl

/-- Any other frame is left out, and where its size is none at all the surface is left as it is. -/
theorem run_present_of_ne (h : surface.size ≠ f.width * f.height * pixelBytes) :
    (present f).run surface = .ok [.dropped f.width f.height] surface ∨
      (present f).run surface = .error .overflow surface := by
  rw [Nat.mul_right_comm] at h
  unfold present
  rw [Step.run_get_bind]
  by_cases hrow : f.width * pixelBytes < Size.bound
  · rw [Size.mul_of_lt hrow, Step.run_bind_of_ok (Step.run_lift_ok ..)]
    by_cases htotal : f.width * pixelBytes * f.height < Size.bound
    · rw [Size.mul_of_lt htotal, Step.run_bind_of_ok (Step.run_lift_ok ..), if_pos h]
      exact .inl rfl
    · rw [Size.mul_of_not_lt htotal]
      exact .inr rfl
  · rw [Size.mul_of_not_lt hrow]
    exact .inr rfl

/-- A frame of another size leaves the surface as it was. -/
theorem present_after_of_ne (h : surface.size ≠ f.width * f.height * pixelBytes) :
    (present f).after surface = surface := by
  rcases run_present_of_ne h with hdropped | hfailed
  · exact Step.after_of_ok hdropped
  · exact Step.after_of_error hfailed

end Surface

namespace ErrorScreens

/-! ## A composed frame -/

variable {screens : ErrorScreens} {c c' : Compositor} {f : Frame} {drawn : List Notice}

/-- A compositor gives no notice of a frame that is left out. -/
theorem refresh_not_dropped {notices : List Notice} (h : refresh.run c = .ok notices c')
    (width height : Nat) : .dropped width height ∉ notices := by
  unfold refresh at h
  rw [Step.run_get_bind] at h
  split at h
  · obtain ⟨notice, t, hprepare, hpure⟩ := (Step.bind_eq_ok ..).mp h
    obtain ⟨rfl, _⟩ := EStateM.Result.ok.inj hpure
    obtain ⟨_, _, _, _, _, rfl, _⟩ := Compositor.prepare_eq_ok hprepare
    simp
  · obtain ⟨rfl, _⟩ := EStateM.Result.ok.inj h
    simp

/-- What is composed is the image. It can be read and stored, and it has the size that a window is
made for. -/
theorem compose_frame (hc : c.Sound) (h : screens.compose.run c = .ok (f, drawn) c') :
    Window.frameSize c = .ok (f.width, f.height) ∧ 0 < f.width ∧ f.Readable ∧ f.Storable ∧
      f.picture = c'.image := by
  have hsize : c.arrangement.size c.gap = .ok (f.width, f.height) := (compose_shows hc h).size_eq
  have hvalid : c'.image.Valid := by
    have hsound := screens.compose_preserves (Compositor.prepare_preserves .software)
      (fun _ _ h => h.sound) c hc
    rw [Step.after_of_ok h] at hsound
    exact hsound.image_valid
  obtain ⟨_, _, _, hf⟩ := (compose_eq_ok ..).mp h
  refine ⟨hsize, ?_, Frame.readable_of_ofPixmap hvalid hf, Frame.storable_of_ofPixmap hvalid hf,
    Frame.picture_of_ofPixmap hvalid hf⟩
  exact Nat.lt_of_lt_of_le (by decide) (Arrangement.size_range hsize).1

end ErrorScreens

namespace Window

/-! ## Screens in a window -/

/-- Whatever was done with a compositor before, the image of screens that it presents to any output
has the size for which the window is made. A recorder, whatever it has recorded before, then holds
that image, and a surface of that size shows it byte for byte and leaves no frame out. A frame of
another size leaves a surface as it is. -/
theorem shows_recorded {σ : Type} (arrangement : Arrangement) (gap : Nat) (before : σ)
    (history : List (Compositor.Action σ)) (screens : ErrorScreens)
    (output : Frame → Step σ (List Notice)) (c : Compositor)
    (hc : c = (Compositor.run history (Compositor.new arrangement gap, before)).1) :
    (∀ c' s s' notices, (screens.present output).run (c, s) = .ok notices (c', s') →
      ∃ width height picture drawn, frameSize c = .ok (width, height) ∧ picture = c'.image ∧
        (∀ calls r, r = Recorder.leftBy calls →
          (screens.presentToRecorder.after (c, r)).2.latest = some picture ∧
          (r.count + 1 < Size.bound →
            ∃ r', screens.presentToRecorder.run (c, r) = .ok drawn (c', r'))) ∧
        (∀ surface : Surface, surface.size = width * height * pixelBytes →
          screens.presentToSurface.run (c, surface) = .ok drawn (c', picture.bytes)) ∧
        ∀ width height, .dropped width height ∉ drawn) ∧
      ∀ (f : Frame) (surface : Surface), surface.size ≠ f.width * f.height * pixelBytes →
        (Surface.present f).after surface = surface := by
  have hsound : c.Sound := by
    rw [hc]
    exact Compositor.run_sound history (Compositor.new_sound arrangement gap)
  refine ⟨?_, fun f surface => Surface.present_after_of_ne⟩
  intro c' s s' notices h
  obtain ⟨f, drawn, _, hcomposed, _, _⟩ := (ErrorScreens.present_eq_ok ..).mp h
  obtain ⟨hsize, hwidth, hreadable, hstorable, himage⟩ :=
    ErrorScreens.compose_frame hsound hcomposed
  refine ⟨f.width, f.height, f.picture, drawn, hsize, himage, ?_, ?_, ?_⟩
  · intro calls r hleft
    have hr : r.Sound := by
      rw [hleft]
      exact Recorder.leftBy_sound calls
    constructor
    · unfold ErrorScreens.presentToRecorder
      rw [ErrorScreens.present_after_of_ok hcomposed, Step.after_bind_pure]
      exact Recorder.record_after_latest hr hreadable hstorable
    · intro hcount
      have hrecord := (Recorder.record_eq_ok hr hreadable _).mpr ⟨hstorable, hcount, rfl⟩
      have hsent : (do
          Recorder.record f
          return [] : Step Recorder (List Notice)).run r =
            .ok [] ⟨some f.picture, r.count + 1⟩ := by
        rw [Step.run_bind_of_ok hrecord]
        rfl
      exact ⟨_, (ErrorScreens.present_eq_ok ..).mpr
        ⟨f, drawn, [], hcomposed, hsent, (List.append_nil drawn).symm⟩⟩
  · intro surface hsurface
    exact (ErrorScreens.present_eq_ok ..).mpr ⟨f, drawn, [], hcomposed,
      Surface.run_present hreadable hstorable hwidth hsurface, (List.append_nil drawn).symm⟩
  · obtain ⟨_, hrefresh, _, _⟩ := (ErrorScreens.compose_eq_ok ..).mp hcomposed
    exact ErrorScreens.refresh_not_dropped hrefresh

/-- Screens that were shown one above the other are shown again the other way round and with a gap.
A frame of one pixel, which the recorder held before, leaves the surface as it is. -/
theorem shows_recorded_swapped :
    let screens : ErrorScreens :=
      ⟨⟨"No BIOS", "Copy it"⟩, ErrorScreens.plainScreen 1, ErrorScreens.plainScreen 2⟩
    let output : Frame → Step Unit (List Notice) := fun _ => return []
    let c := (Compositor.run ([.present screens output] ++ [.setArrangement .bottomTop, .setGap 8])
      (Compositor.new .topBottom 0, ())).1
    let dot : Frame := ⟨#[1, 2, 3, 4], 1, 1, 4⟩
    let r := Recorder.leftBy [.record dot]
    let surface : Surface := Array.replicate (256 * 392 * pixelBytes) 0
    ∃ picture drawn c' r', (screens.presentToRecorder.after (c, r)).2.latest = some picture ∧
      screens.presentToRecorder.run (c, r) = .ok drawn (c', r') ∧
      screens.presentToSurface.run (c, surface) = .ok drawn (c', picture.bytes) ∧
      (Surface.present dot).after surface = surface := by
  intro screens output c dot r surface
  have hsound : c.Sound := Compositor.run_sound _ (Compositor.new_sound .topBottom 0)
  have hlayout : c.arrangement = .bottomTop ∧ c.gap = 8 :=
    Compositor.run_set_layout [.present screens output] .bottomTop 8 _
  have hframe : frameSize c = .ok (256, 392) := by
    rw [frameSize, hlayout.1, hlayout.2]
    rfl
  obtain ⟨f, drawn, c', hcomposed⟩ : ∃ f drawn c', screens.compose.run c = .ok (f, drawn) c' :=
    ErrorScreens.exists_compose hsound (ErrorScreens.plainScreen_valid 1)
      (ErrorScreens.plainScreen_valid 2) hframe (by decide)
      (by rw [hlayout.1, hlayout.2]; rfl)
  obtain ⟨hshown, hleft⟩ := shows_recorded .topBottom 0 () _ screens output c rfl
  obtain ⟨width, height, picture, drawn', hsize, _, hrecorder, hsurface, _⟩ :=
    hshown c' () () drawn ((ErrorScreens.present_eq_ok ..).mpr
      ⟨f, drawn, [], hcomposed, rfl, (List.append_nil drawn).symm⟩)
  rw [hframe] at hsize
  obtain ⟨rfl, rfl⟩ := Prod.mk.inj (Except.ok.inj hsize)
  obtain ⟨hlatest, hrun⟩ := hrecorder [.record dot] r rfl
  obtain ⟨r', hrecorded⟩ := hrun (by decide)
  have hfull : surface.size = 256 * 392 * pixelBytes := Array.size_replicate
  exact ⟨picture, drawn', c', r', hlatest, hrecorded, hsurface surface hfull,
    hleft dot surface (by simp [hfull, dot, pixelBytes])⟩

end Window

end TwinScreen
