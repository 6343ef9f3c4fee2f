import TwinScreen.Proofs.Pixmap.Compositing

/-!
# Opaque images

An opaque color hides what it is composited on. So an image of opaque colors that fits into a pixmap
may as well be copied there, row by row, as drawn pixel by pixel: what is left is the same
(`draw_eq_copy`).
-/
namespace TwinScreen.Pixmap

/-- What is pasted on a valid pixmap determines what is left of it. -/
theorem Pasted.unique {source p q q' : Pixmap} {x y rows : Nat} (hp : p.Valid)
    (h : Pasted source x y rows p q) (h' : Pasted source x y rows p q') : q = q' := by
  apply (h.shape.valid hp).ext (h'.shape.valid hp)
  · rw [h.shape.width_eq, h'.shape.width_eq]
  · rw [h.shape.height_eq, h'.shape.height_eq]
  · intro i _ j _
    by_cases hij : InRect x y source.width rows i j
    · obtain ⟨a, ha, b, hb, rfl, rfl⟩ := hij.exists_add
      rw [h.inside a ha b hb, h'.inside a ha b hb]
    · rw [h.outside i j hij, h'.outside i j hij]

/-- An image of opaque colors hides what it is composited on, so it has been pasted. -/
theorem Overlaid.pasted {image p p' : Pixmap} {x y : Nat}
    (himage : image.Painted fun color => color.alpha = 255) (hp : p.Valid)
    (hright : x + image.width ≤ p.width) (hbelow : y + image.height ≤ p.height)
    (h : Overlaid image x y (fun a b => a < image.width ∧ b < image.height) p p') :
    Pasted image x y image.height p p' where
  shape := h.shape
  readable := fun _ hj => himage.valid.hasRow hj
  inside := by
    intro a ha b hb
    obtain ⟨color, hcolor⟩ := (himage.valid.hasRow hb).exists_pixel? ha hb
    -- Some color is there to be hidden, since the image lies inside the pixmap.
    have hrow : p.HasRow (y + b) := hp.hasRow (by omega)
    obtain ⟨old, hold⟩ := hrow.exists_pixel? (x := x + a) (by omega) (by omega)
    have hhides : color.onto old = color := if_pos (himage.colors a b color hcolor)
    rw [h.covered a b color ⟨ha, hb⟩ hcolor (x + a) (y + b) (by omega) (by omega), hold, hcolor,
      Option.map_some, hhides]
  outside := by
    intro i j hij
    refine h.others i j fun a b hab hplace => hij ?_
    unfold InRect
    omega

/-- An image of opaque colors that fits into a pixmap may be drawn or copied there: both succeed,
and both leave the pixmap with the image pasted into its rectangle. -/
theorem draw_eq_copy {source target : Pixmap} {x y : Nat}
    (hsource : source.Painted fun color => color.alpha = 255) (htarget : target.Valid)
    (hwidth : target.width < 0x80000000) (hheight : target.height < 0x80000000)
    (hright : x + source.width ≤ target.width) (hbelow : y + source.height ≤ target.height) :
    ∃ target', (source.draw x y).run target = .ok () target' ∧
      (source.copy x y).run target = .ok () target' ∧
      Pasted source x y source.height target target' := by
  have hplace : source.Placeable x y :=
    ⟨hsource.valid, ⟨by omega, by omega⟩, ⟨by omega, by omega⟩, by omega, by omega⟩
  have hbound : 0x80000000 ≤ Size.bound := by decide
  obtain ⟨drawn, hdraw, hover⟩ := exists_draw hplace htarget
  obtain ⟨copied, hcopy⟩ :=
    exists_copy hsource.valid htarget (by omega) (by omega) hright hbelow
  have hdrawn := hover.pasted hsource htarget hright hbelow
  obtain ⟨_, hcopied⟩ := copy_pasted hcopy
  obtain rfl := hdrawn.unique htarget hcopied
  exact ⟨drawn, hdraw, hcopy, hdrawn⟩

/-- The source lies in the lower right corner of the target. -/
theorem draw_eq_copy_flush :
    let source : Pixmap := ⟨1, 2, #[1, 2, 3, 255, 4, 5, 6, 255]⟩
    let target : Pixmap := ⟨2, 2, Array.replicate 16 100⟩
    (source.Painted fun color => color.alpha = 255) ∧ target.Valid ∧
    ∃ target', (source.draw 1 0).run target = .ok () target' ∧
      (source.copy 1 0).run target = .ok () target' ∧
      target'.pixel? 1 1 = some ⟨4, 5, 6, 255⟩ ∧
      target'.pixel? 0 1 = some ⟨100, 100, 100, 100⟩ := by
  intro source target
  have hsource : source.Painted fun color => color.alpha = 255 := by
    refine ⟨⟨rfl, by decide⟩, fun i j color hcolor => ?_⟩
    obtain ⟨hi, hj⟩ := inside_of_pixel? hcolor
    obtain rfl : i = 0 := Nat.lt_one_iff.mp hi
    match j, hj with
    | 0, _ | 1, _ =>
      obtain rfl := Option.some.inj hcolor
      rfl
  have htarget : target.Valid := ⟨by decide, by decide⟩
  obtain ⟨target', hdraw, hcopy, hpasted⟩ :=
    draw_eq_copy (x := 1) (y := 0) hsource htarget (by decide) (by decide) (by decide) (by decide)
  refine ⟨hsource, htarget, target', hdraw, hcopy, ?_, ?_⟩
  · exact hpasted.inside 0 (by decide) 1 (by decide)
  · exact hpasted.outside 0 1 fun hinside => absurd hinside.1 (by decide)

end TwinScreen.Pixmap
