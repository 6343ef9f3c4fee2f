import TwinScreen.Proofs.Compositor.Placing
import TwinScreen.Window

/-!
# Sizes of windows

A window has the size of its frame times a factor from 1 to 8, or none if that is no dimension of a
window. This is so for frames whose dimensions are less than `2 ^ 32`. Of a larger frame only the
lowest 32 bits of the dimensions are multiplied, so it gets a window of a wrong size, unless even
these bits are too many (`sized_exactly_iff`).
-/
namespace TwinScreen.Window

/-- A window with the standard factor or one that was chosen. -/
inductive Configured : Window → Prop
  | standard : Configured standard
  | withScale (before : Window) (scale : Nat) : Configured (before.withScale scale)

/-- The window for a frame is refused as too large, or it has the size of the frame times the
factor. -/
def SizedRight (w : Window) (width height : Nat) : Prop :=
  w.size width height = .error .overflow ∨
    w.size width height = .ok (width * w.scale, height * w.scale)

variable {w : Window} {width height : Nat}

/-- The factor is always one of those allowed. -/
theorem Configured.scale_range (h : w.Configured) : 1 ≤ w.scale ∧ w.scale ≤ 8 := by
  cases h with
  | standard => exact ⟨by decide, by decide⟩
  | withScale before scale =>
    unfold Window.withScale
    dsimp only
    omega

theorem size_eq_error
    (h : Extent.bound ≤ width % Extent.bound * w.scale ∨
      Extent.bound ≤ height % Extent.bound * w.scale) :
    w.size width height = .error .overflow := by
  unfold size Extent.mul Extent.ofSize
  split
  · rw [if_neg (by omega)]
    rfl
  · rfl

theorem size_eq_ok (hwidth : width % Extent.bound * w.scale < Extent.bound)
    (hheight : height % Extent.bound * w.scale < Extent.bound) :
    w.size width height =
      .ok (width % Extent.bound * w.scale, height % Extent.bound * w.scale) := by
  unfold size Extent.mul Extent.ofSize
  rw [if_pos hwidth, if_pos hheight]
  rfl

/-- Multiples of a number and of its lowest bits agree only where no bit is lost. -/
theorem low_mul_eq_iff {n scale : Nat} (hscale : 1 ≤ scale) :
    n % Extent.bound * scale = n * scale ↔ n < Extent.bound := by
  rw [Nat.mul_left_inj (by omega), Nat.mod_eq_iff_lt (by decide)]

/-- A window that can be as large as its frame and its factor ask for is as large. -/
theorem size_of_fits (hscale : 1 ≤ w.scale) (hwidth : width * w.scale < Extent.bound)
    (hheight : height * w.scale < Extent.bound) :
    w.size width height = .ok (width * w.scale, height * w.scale) := by
  have hlow {n : Nat} (h : n * w.scale < Extent.bound) : n % Extent.bound * w.scale = n * w.scale :=
    (low_mul_eq_iff hscale).mpr (Nat.lt_of_le_of_lt (Nat.le_mul_of_pos_right n hscale) h)
  have hsize := size_eq_ok (by rwa [hlow hwidth]) (by rwa [hlow hheight])
  rwa [hlow hwidth, hlow hheight] at hsize

/-- A window is sized right if no bits of the frame's dimensions are lost, or if the product is
refused anyway. -/
theorem Configured.sizedRight_iff (hw : w.Configured) :
    w.SizedRight width height ↔
      (width < Extent.bound ∧ height < Extent.bound) ∨
        Extent.bound ≤ width % Extent.bound * w.scale ∨
        Extent.bound ≤ height % Extent.bound * w.scale := by
  have hscale := hw.scale_range.1
  by_cases hlarge : Extent.bound ≤ width % Extent.bound * w.scale ∨
      Extent.bound ≤ height % Extent.bound * w.scale
  · exact iff_of_true (.inl (size_eq_error hlarge)) (.inr hlarge)
  · have hfits : width % Extent.bound * w.scale < Extent.bound ∧
        height % Extent.bound * w.scale < Extent.bound := by omega
    have hright : w.SizedRight width height ↔ width < Extent.bound ∧ height < Extent.bound := by
      unfold SizedRight
      rw [size_eq_ok hfits.1 hfits.2]
      simp [low_mul_eq_iff hscale]
    rw [hright, or_iff_left hlarge]

/-- A moderate gap keeps the dimensions of the frame below the bound. -/
theorem frameSize_lt {c : Compositor} (hgap : screenWidth * 2 + c.gap < Extent.bound)
    (h : frameSize c = .ok (width, height)) : width < Extent.bound ∧ height < Extent.bound := by
  have hle := Arrangement.size_le h
  have hscreen : screenHeight ≤ screenWidth := by decide
  omega

/-- A window that can have the size of its frame times the factor has it. Any other one is refused,
but not where a dimension of the frame has more than 32 bits and the factor leaves room for the
lowest 32 bits of both: then the window is sized wrong. The frames of compositors are not so large
unless the gap is about as wide as that. -/
theorem sized_exactly_iff (hw : w.Configured) :
    (∀ width height, width * w.scale < Extent.bound → height * w.scale < Extent.bound →
      w.size width height = .ok (width * w.scale, height * w.scale)) ∧
    (∀ width height, w.SizedRight width height ↔
      (width < Extent.bound ∧ height < Extent.bound) ∨
        Extent.bound ≤ width % Extent.bound * w.scale ∨
        Extent.bound ≤ height % Extent.bound * w.scale) ∧
    ∀ (c : Compositor) (width height : Nat), screenWidth * 2 + c.gap < Extent.bound →
      frameSize c = .ok (width, height) → w.SizedRight width height := by
  refine ⟨fun _ _ => size_of_fits hw.scale_range.1, fun _ _ => hw.sizedRight_iff, ?_⟩
  intro c width height hgap hframe
  exact hw.sizedRight_iff.mpr (.inl (frameSize_lt hgap hframe))

/-- Eight times the frame with the widest gap that is never lost: too large for a window, and said
to be so. -/
theorem sized_exactly_widest :
    (Window.standard.withScale 100).Configured ∧ screenWidth * 2 + 0xFFFFFDFF < Extent.bound ∧
      frameSize (Compositor.new .leftRight 0xFFFFFDFF) = .ok (0xFFFFFFFF, 192) ∧
      (Window.standard.withScale 100).SizedRight 0xFFFFFFFF 192 ∧
      (Window.standard.withScale 100).size 0xFFFFFFFF 192 = .error .overflow := by
  have hw : (Window.standard.withScale 100).Configured := .withScale .standard 100
  have hgap : screenWidth * 2 + 0xFFFFFDFF < Extent.bound := by decide
  have hframe : frameSize (Compositor.new .leftRight 0xFFFFFDFF) = .ok (0xFFFFFFFF, 192) := rfl
  exact ⟨hw, hgap, hframe, (sized_exactly_iff hw).2.2 _ _ _ hgap hframe, rfl⟩

/-- With a gap of `2 ^ 32` the window has no room for it. -/
theorem size_without_gap :
    0x100000000 < Size.bound ∧
      frameSize (Compositor.new .topBottom 0x100000000) = .ok (256, 0x100000180) ∧
      Window.standard.size 256 0x100000180 = .ok (512, 768) ∧
      ¬ Window.standard.SizedRight 256 0x100000180 := by
  refine ⟨by decide, rfl, rfl, ?_⟩
  rw [Configured.standard.sizedRight_iff]
  decide

end TwinScreen.Window
