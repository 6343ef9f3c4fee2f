import TwinScreen.Proofs.Pixmap.Compositing
import TwinScreen.Screen.Icon
import TwinScreen.Settings

/-!
# Where icons are drawn

An icon smaller than its target stands above the margin at the lower edge and beside the margin at
the edge of its corner, with whatever part of it lies outside clipped (`drawIcon_in_corner`). A
larger icon is refused, and the target is left as it was.
-/
namespace TwinScreen

/-- A margin is at most as wide as a screen. -/
theorem Sizes.marginOffset_range (sizes : Sizes) :
    0 ≤ sizes.marginOffset ∧ sizes.marginOffset ≤ screenWidth := by
  unfold marginOffset
  omega

namespace Pixmap

/-! ## The rectangle of an icon -/

def iconLeft (icon : Pixmap) (corner : Corner) (margin : Int) (target : Pixmap) : Int :=
  match corner with
  | .bottomLeft => margin
  | .bottomRight => target.width - icon.width - margin

def iconTop (icon : Pixmap) (margin : Int) (target : Pixmap) : Int :=
  target.height - icon.height - margin

/-- The columns of an icon: beside the margin at the edge of its corner. -/
def InIconColumns (icon : Pixmap) (corner : Corner) (margin : Int) (target : Pixmap)
    (i : Nat) : Prop :=
  match corner with
  | .bottomLeft => margin ≤ i ∧ i < margin + icon.width
  | .bottomRight => target.width - icon.width - margin ≤ i ∧ i < target.width - margin

/-- The rows of an icon: above the margin at the lower edge. -/
def InIconRows (icon : Pixmap) (margin : Int) (target : Pixmap) (j : Nat) : Prop :=
  target.height - icon.height - margin ≤ j ∧ j < target.height - margin

/-- The columns that keep the margin free at the edge of a corner. -/
def InSideMargin (corner : Corner) (margin : Int) (target : Pixmap) (i : Nat) : Prop :=
  match corner with
  | .bottomLeft => i < margin
  | .bottomRight => target.width - margin ≤ i

section Place

variable {icon target : Pixmap} {corner : Corner} {margin : Int} {i j : Nat}

theorem inIconColumns_iff :
    InIconColumns icon corner margin target i ↔
      ∃ a < icon.width, i = icon.iconLeft corner margin target + a := by
  have hplace (left : Int) : left ≤ i ∧ i < left + icon.width ↔
      ∃ a < icon.width, i = left + a := by
    constructor
    · intro h
      exact ⟨(i - left).toNat, by omega, by omega⟩
    · rintro ⟨a, ha, h⟩
      omega
  cases corner with
  | bottomLeft => exact hplace margin
  | bottomRight =>
    have hright : target.width - icon.width - margin + icon.width = target.width - margin := by
      omega
    have hinside := hplace (target.width - icon.width - margin)
    rwa [hright] at hinside

theorem inIconRows_iff :
    InIconRows icon margin target j ↔ ∃ b < icon.height, j = icon.iconTop margin target + b := by
  unfold InIconRows iconTop
  constructor
  · intro h
    exact ⟨(j - (target.height - icon.height - margin)).toNat, by omega, by omega⟩
  · rintro ⟨b, hb, h⟩
    omega

theorem not_inIconColumns_of_inSideMargin (h : InSideMargin corner margin target i) :
    ¬ InIconColumns icon corner margin target i := by
  cases corner with
  | bottomLeft => exact fun hinside => absurd h (Int.not_lt.mpr hinside.1)
  | bottomRight => exact fun hinside => absurd hinside.2 (Int.not_lt.mpr h)

end Place

/-! ## Drawing an icon -/

section DrawIcon

variable {icon target : Pixmap} {margin : Int}

/-- The left edge of an icon on a target of moderate size is a coordinate. -/
theorem iconX_eq (hwidth : icon.width < target.width) (hmargin : 0 ≤ margin)
    (hright : target.width + margin < 0x80000000) (corner : Corner) :
    icon.iconX corner margin target = .ok (icon.iconLeft corner margin target) := by
  cases corner with
  | bottomLeft => rfl
  | bottomRight =>
    unfold iconX iconLeft
    dsimp only
    rw [Offset.ofSize_of_lt (by omega), Int.ofNat_sub (Nat.le_of_lt hwidth)]
    exact Offset.sub_of_fits ⟨by omega, by omega⟩

theorem iconY_eq (hheight : icon.height < target.height) (hmargin : 0 ≤ margin)
    (hbelow : target.height + margin < 0x80000000) :
    icon.iconY margin target = .ok (icon.iconTop margin target) := by
  unfold iconY iconTop
  rw [Offset.ofSize_of_lt (by omega), Int.ofNat_sub (Nat.le_of_lt hheight)]
  exact Offset.sub_of_fits ⟨by omega, by omega⟩

/-- An icon smaller than its target is drawn where the margin puts it. -/
theorem run_drawIcon (hwidth : icon.width < target.width) (hheight : icon.height < target.height)
    (hmargin : 0 ≤ margin) (hright : target.width + margin < 0x80000000)
    (hbelow : target.height + margin < 0x80000000) (corner : Corner) :
    (icon.drawIcon corner margin).run target =
      (icon.draw (icon.iconLeft corner margin target) (icon.iconTop margin target)).run target := by
  unfold drawIcon
  rw [Step.run_get_bind, if_neg (by omega), if_neg (by omega),
    iconX_eq hwidth hmargin hright corner, Step.run_bind_of_ok (Step.run_lift_ok ..),
    iconY_eq hheight hmargin hbelow, Step.run_bind_of_ok (Step.run_lift_ok ..)]

/-- An icon smaller than its target is composited with its upper left corner where the margin puts
it, on the target or outside of it. -/
theorem exists_drawIcon (hicon : icon.Valid) (htarget : target.Valid)
    (hwidth : icon.width < target.width) (hheight : icon.height < target.height)
    (hmargin : 0 ≤ margin) (hright : target.width + margin < 0x80000000)
    (hbelow : target.height + margin < 0x80000000) (corner : Corner) :
    ∃ target', (icon.drawIcon corner margin).run target = .ok () target' ∧
      Overlaid icon (icon.iconLeft corner margin target) (icon.iconTop margin target)
        (fun a b => a < icon.width ∧ b < icon.height) target target' := by
  have hplace : icon.Placeable (icon.iconLeft corner margin target)
      (icon.iconTop margin target) := by
    refine ⟨hicon, ?_, ?_, by omega, by omega⟩
    · cases corner with
      | bottomLeft => exact ⟨by simp only [iconLeft]; omega, by simp only [iconLeft]; omega⟩
      | bottomRight => exact ⟨by simp only [iconLeft]; omega, by simp only [iconLeft]; omega⟩
    · unfold iconTop
      omega
  rw [run_drawIcon hwidth hheight hmargin hright hbelow corner]
  exact exists_draw hplace htarget

/-- An icon as wide as the target is refused before anything is drawn. -/
theorem drawIcon_of_wide (h : target.width ≤ icon.width) (corner : Corner) :
    (icon.drawIcon corner margin).run target =
      .error (.iconTooWide icon.width target.width) target := by
  unfold drawIcon
  rw [Step.run_get_bind, if_pos h]
  rfl

theorem drawIcon_of_tall (hwidth : icon.width < target.width) (h : target.height ≤ icon.height)
    (corner : Corner) :
    (icon.drawIcon corner margin).run target =
      .error (.iconTooTall icon.height target.height) target := by
  unfold drawIcon
  rw [Step.run_get_bind, if_neg (Nat.not_le.mpr hwidth), if_pos h]
  rfl

end DrawIcon

/-! ## Icons in their corners -/

/-- An icon has been drawn in a corner of a pixmap: the pixels of its rectangle that the pixmap has
show the icon on what they showed before, the other ones what they showed before. -/
structure HasIcon (icon : Pixmap) (corner : Corner) (margin : Int) (p p' : Pixmap) : Prop where
  shape : p.SameShape p'
  inside : ∀ i < p.width, ∀ j < p.height,
    InIconColumns icon corner margin p i → InIconRows icon margin p j → ∃ color old,
      icon.pixel? (i - icon.iconLeft corner margin p).toNat (j - icon.iconTop margin p).toNat =
        some color ∧
      p.pixel? i j = some old ∧ p'.pixel? i j = some (color.onto old)
  outside : ∀ i j, ¬ (InIconColumns icon corner margin p i ∧ InIconRows icon margin p j) →
    p'.pixel? i j = p.pixel? i j

theorem Overlaid.hasIcon {icon p p' : Pixmap} {corner : Corner} {margin : Int}
    (hicon : icon.Valid) (hp : p.Valid)
    (h : Overlaid icon (icon.iconLeft corner margin p) (icon.iconTop margin p)
      (fun a b => a < icon.width ∧ b < icon.height) p p') : HasIcon icon corner margin p p' where
  shape := h.shape
  inside := by
    intro i hi j hj hcolumn hrow
    obtain ⟨a, ha, hia⟩ := inIconColumns_iff.mp hcolumn
    obtain ⟨b, hb, hjb⟩ := inIconRows_iff.mp hrow
    obtain ⟨color, hcolor⟩ := (hicon.hasRow hb).exists_pixel? ha hb
    obtain ⟨old, hold⟩ := (hp.hasRow hj).exists_pixel? hi hj
    have hnew := h.covered a b color ⟨ha, hb⟩ hcolor i j hia hjb
    have hplace : (i - icon.iconLeft corner margin p).toNat = a ∧
        (j - icon.iconTop margin p).toNat = b := by omega
    refine ⟨color, old, ?_, hold, ?_⟩
    · rw [hplace.1, hplace.2, hcolor]
    · rw [hnew, hold, Option.map_some]
  outside := by
    intro i j hout
    refine h.others i j fun a b hab hij => hout ?_
    exact ⟨inIconColumns_iff.mpr ⟨a, hab.1, hij.1⟩, inIconRows_iff.mpr ⟨b, hab.2, hij.2⟩⟩

/-- No row of a pixmap lies above a margin as wide as the pixmap is high. -/
theorem HasIcon.eq_of_height_le {icon p p' : Pixmap} {corner : Corner} {margin : Int}
    (hp : p.Valid) (h : HasIcon icon corner margin p p') (hmargin : p.height ≤ margin) :
    p' = p := by
  refine (h.shape.valid hp).ext hp h.shape.width_eq h.shape.height_eq fun i _ j _ => ?_
  refine h.outside i j fun hinside => ?_
  have hrow := hinside.2.2
  omega

/-- An icon that is not smaller than its target is refused before anything is drawn. Any other icon
is drawn in its corner, whatever the margin of the settings: the rows of the margin at the lower
edge and the columns of the margin at the edge of the corner stay as they were, and on a screen the
widest margin leaves nothing of the icon. -/
theorem drawIcon_in_corner {icon target : Pixmap} {margin : Int} (sizes : Sizes) (corner : Corner)
    (hicon : icon.Valid) (htarget : target.Valid) (hwidth : target.width < 0x40000000)
    (hheight : target.height < 0x40000000) (hmargin : sizes.marginOffset = margin) :
    (target.width ≤ icon.width → (icon.drawIcon corner margin).run target =
      .error (.iconTooWide icon.width target.width) target) ∧
    (icon.width < target.width → target.height ≤ icon.height →
      (icon.drawIcon corner margin).run target =
        .error (.iconTooTall icon.height target.height) target) ∧
    (icon.width < target.width → icon.height < target.height →
      ∃ target', (icon.drawIcon corner margin).run target = .ok () target' ∧
        HasIcon icon corner margin target target' ∧
        (∀ i j : Nat, target.height - margin ≤ j → target'.pixel? i j = target.pixel? i j) ∧
        (∀ i j : Nat, InSideMargin corner margin target i →
          target'.pixel? i j = target.pixel? i j) ∧
        (target.width = 256 → target.height = 192 → margin = 256 → target' = target)) := by
  refine ⟨fun hwide => drawIcon_of_wide hwide corner,
    fun hnarrow htall => drawIcon_of_tall hnarrow htall corner, fun hnarrow hshort => ?_⟩
  obtain ⟨hlow, hhigh⟩ := sizes.marginOffset_range
  rw [hmargin] at hlow hhigh
  unfold screenWidth at hhigh
  obtain ⟨target', hdrawn, hover⟩ := exists_drawIcon hicon htarget hnarrow hshort hlow
    (by omega) (by omega) corner
  have hplaced := hover.hasIcon hicon htarget
  refine ⟨target', hdrawn, hplaced, ?_, ?_, ?_⟩
  · intro i j hbelow
    refine hplaced.outside i j fun hinside => ?_
    have hrow := hinside.2.2
    omega
  · intro i j hside
    exact hplaced.outside i j fun hinside =>
      not_inIconColumns_of_inSideMargin hside hinside.1
  · intro _ hscreen hwidest
    exact hplaced.eq_of_height_le htarget (by omega)

/-- Of an icon that hangs over the left and the upper edge one pixel is seen. -/
theorem drawIcon_in_corner_hanging :
    let icon : Pixmap := ⟨2, 2, #[1, 2, 3, 4, 5, 6, 7, 8, 9, 10, 11, 12, 250, 0, 100, 102]⟩
    let target : Pixmap := ⟨3, 3, Array.replicate 36 100⟩
    icon.Valid ∧ target.Valid ∧ Sizes.marginOffset ⟨14, 12, 2⟩ = 2 ∧
    ∃ target', (icon.drawIcon .bottomRight 2).run target = .ok () target' ∧
      target'.pixel? 0 0 = some ⟨194, 37, 100, 162⟩ ∧
      target'.pixel? 1 0 = some ⟨100, 100, 100, 100⟩ ∧
      target'.pixel? 0 1 = some ⟨100, 100, 100, 100⟩ := by
  intro icon target
  have hicon : icon.Valid := ⟨by decide, by decide⟩
  have htarget : target.Valid := ⟨by decide, by decide⟩
  have hmargin : Sizes.marginOffset ⟨14, 12, 2⟩ = 2 := by decide
  obtain ⟨-, -, hdraw⟩ := drawIcon_in_corner ⟨14, 12, 2⟩ .bottomRight hicon htarget (by decide)
    (by decide) hmargin
  obtain ⟨target', hdrawn, hplaced, hbelow, hside, -⟩ := hdraw (by decide) (by decide)
  refine ⟨hicon, htarget, hmargin, target', hdrawn, ?_, ?_, ?_⟩
  · obtain ⟨color, old, hcolor, hold, hnew⟩ := hplaced.inside 0 (by decide) 0 (by decide)
      ⟨by decide, by decide⟩ ⟨by decide, by decide⟩
    obtain rfl : ⟨250, 0, 100, 102⟩ = color := Option.some.inj hcolor
    obtain rfl : ⟨100, 100, 100, 100⟩ = old := Option.some.inj hold
    rw [hnew]
    decide
  · exact hside 1 0 (by unfold InSideMargin; decide)
  · exact hbelow 0 1 (by decide)

end Pixmap

end TwinScreen
