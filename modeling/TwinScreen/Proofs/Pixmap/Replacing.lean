import TwinScreen.Proofs.Pixmap.Changes

/-!
# Replacing a rectangle

A copy reaches over an edge of its target, or it fits. In the first case it is refused before a byte
is written, in the second case nothing stands in its way: the positions it computes are sizes and
the rows it reads and writes lie in their pixmaps. What it leaves reads as the source inside of one
rectangle and as the target elsewhere (`copy_replaces`).
-/
namespace TwinScreen.Pixmap

variable {source p p' : Pixmap} {x y : Nat}

/-- A source with its upper left corner at `(x, y)` reaches over the right or the bottom edge. -/
def Overhangs (source : Pixmap) (x y : Nat) (p : Pixmap) : Prop :=
  p.width < x + source.width ∨ p.height < y + source.height

/-- The height is looked at only where the width fits, but the fault is the same. -/
theorem copy_of_overhangs (hx : x + source.width < Size.bound)
    (hy : y + source.height < Size.bound) (h : source.Overhangs x y p) :
    (source.copy x y).run p =
      .error (.doesNotFit source.width source.height x y p.width p.height) p := by
  unfold copy
  rw [Step.run_get_bind, Size.add_of_lt hx, Step.run_bind_of_ok (Step.run_lift_ok ..)]
  by_cases hright : p.width < x + source.width
  · rw [if_pos hright]
    rfl
  · have hbelow := h.resolve_left hright
    rw [if_neg hright, Size.add_of_lt hy, Step.run_bind_of_ok (Step.run_lift_ok ..), if_pos hbelow]
    rfl

/-- The rectangle with the upper left corner `(x, y)` reads as the source; at every other position
the pixmap reads as before, or is refused as before. -/
structure Replaced (source : Pixmap) (x y : Nat) (p p' : Pixmap) : Prop where
  shape : p.SameShape p'
  inside : ∀ i j, InRect x y source.width source.height i j →
    ∃ color, source.pixel (i - x) (j - y) = .ok color ∧ p'.pixel i j = .ok color
  outside : ∀ i j, ¬ InRect x y source.width source.height i j → p'.pixel i j = p.pixel i j

theorem Pasted.replaced (hp : p.Valid) (hbelow : y + source.height ≤ p.height)
    (h : Pasted source x y source.height p p') : Replaced source x y p p' where
  shape := h.shape
  inside := by
    intro i j hij
    obtain ⟨a, ha, b, hb, rfl, rfl⟩ := hij.exists_add
    have hsource := h.readable b hb
    have hrow : p'.HasRow (y + b) :=
      (h.shape.valid hp).hasRow (by rw [h.shape.height_eq]; omega)
    obtain ⟨color, hcolor⟩ := hsource.exists_pixel? ha hb
    refine ⟨color, ?_, ?_⟩
    · rw [Nat.add_sub_cancel_left, Nat.add_sub_cancel_left]
      exact (hsource.pixel_eq_ok color).mpr hcolor
    · exact (hrow.pixel_eq_ok color).mpr ((h.inside a ha b hb).trans hcolor)
  outside := fun i j hij => pixel_congr h.shape (fun _ hj => hp.hasRow hj) (h.outside i j hij)

/-- Where the far corner of a source can be computed, the source is refused exactly if it reaches
over an edge, and the refusal names all dimensions and leaves the target as it was. Otherwise the
source replaces one rectangle of the target and nothing else. -/
theorem copy_replaces (hsource : source.Valid) (hp : p.Valid)
    (hx : x + source.width < Size.bound) (hy : y + source.height < Size.bound) :
    ((∃ e p', (source.copy x y).run p = .error e p') ↔ source.Overhangs x y p) ∧
    (∀ e p', (source.copy x y).run p = .error e p' →
      p' = p ∧ e = .doesNotFit source.width source.height x y p.width p.height) ∧
    (¬ source.Overhangs x y p →
      ∃ p', (source.copy x y).run p = .ok () p' ∧ Replaced source x y p p') := by
  by_cases h : source.Overhangs x y p
  · have hrun := copy_of_overhangs hx hy h
    refine ⟨⟨fun _ => h, fun _ => ⟨_, p, hrun⟩⟩, fun e q hq => ?_, fun hfits => absurd h hfits⟩
    rw [hrun] at hq
    obtain ⟨rfl, rfl⟩ := EStateM.Result.error.inj hq
    exact ⟨rfl, rfl⟩
  · have hroom : x + source.width ≤ p.width ∧ y + source.height ≤ p.height := by
      simpa [Overhangs] using h
    obtain ⟨p', hrun⟩ := exists_copy hsource hp hx hy hroom.1 hroom.2
    obtain ⟨_, hpasted⟩ := copy_pasted hrun
    have hnever : ¬ ∃ e q, (source.copy x y).run p = .error e q := by
      rintro ⟨e, q, hq⟩
      rw [hrun] at hq
      cases hq
    refine ⟨⟨fun hfails => absurd hfails hnever, fun hover => absurd hover h⟩, ?_, fun _ => ?_⟩
    · intro e q hq
      exact absurd ⟨e, q, hq⟩ hnever
    · exact ⟨p', hrun, hpasted.replaced hp hroom.2⟩

/-- A source in the lower right corner fits, and does not fit one column further; one without
columns fits at the right edge and leaves all as it was. -/
theorem copy_replaces_flush :
    let source : Pixmap := ⟨2, 1, #[1, 2, 3, 4, 5, 6, 7, 8]⟩
    let hollow : Pixmap := ⟨0, 2, #[]⟩
    let target : Pixmap := ⟨3, 2, Array.replicate 24 100⟩
    source.Valid ∧ hollow.Valid ∧ target.Valid ∧
    (∃ target', (source.copy 1 1).run target = .ok () target' ∧
      target'.pixel 2 1 = .ok ⟨5, 6, 7, 8⟩ ∧ target'.pixel 0 1 = .ok ⟨100, 100, 100, 100⟩) ∧
    (∃ e, (source.copy 2 1).run target = .error e target) ∧
    ∃ target', (hollow.copy 3 0).run target = .ok () target' ∧
      ∀ i j, target'.pixel i j = target.pixel i j := by
  intro source hollow target
  have hsource : source.Valid := ⟨rfl, by decide⟩
  have hhollow : hollow.Valid := ⟨rfl, by decide⟩
  have htarget : target.Valid := ⟨by decide, by decide⟩
  refine ⟨hsource, hhollow, htarget, ?_, ?_, ?_⟩
  · obtain ⟨_, _, hfits⟩ :=
      copy_replaces (x := 1) (y := 1) hsource htarget (by decide) (by decide)
    obtain ⟨target', hrun, hreplaced⟩ := hfits (by unfold Overhangs; decide)
    have hinside : InRect 1 1 source.width source.height 2 1 := by
      refine ⟨?_, ?_, ?_, ?_⟩ <;> decide
    obtain ⟨color, hcolor, hread⟩ := hreplaced.inside 2 1 hinside
    obtain rfl := Except.ok.inj hcolor
    exact ⟨target', hrun, hread, hreplaced.outside 0 1 fun hinside => absurd hinside.1 (by decide)⟩
  · obtain ⟨hfails, hkept, _⟩ :=
      copy_replaces (x := 2) (y := 1) hsource htarget (by decide) (by decide)
    obtain ⟨e, target', hrun⟩ := hfails.mpr (.inl (by decide))
    obtain ⟨rfl, _⟩ := hkept e target' hrun
    exact ⟨e, hrun⟩
  · obtain ⟨_, _, hfits⟩ :=
      copy_replaces (x := 3) (y := 0) hhollow htarget (by decide) (by decide)
    obtain ⟨target', hrun, hreplaced⟩ := hfits (by unfold Overhangs; decide)
    refine ⟨target', hrun, fun i j => hreplaced.outside i j fun hinside => ?_⟩
    exact absurd (Nat.lt_of_le_of_lt hinside.1 hinside.2.1) (Nat.lt_irrefl 3)

end TwinScreen.Pixmap
