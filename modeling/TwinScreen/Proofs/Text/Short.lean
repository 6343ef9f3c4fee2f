import TwinScreen.Proofs.Text.Unchanged

/-!
# Short texts

Filling has no fault as long as the weights of the lines are sizes (`exists_wrap`). They are for
every text of at most `3 * 2 ^ 32` bytes, whatever a wide glyph weighs, and under the largest budget
nothing is broken (`wrap_never_overflows`).
-/
namespace TwinScreen.Text

/-- A byte weighs at most a third of the heaviest wide glyph there can be. -/
theorem weight_le_of_utf8Length {wide : Nat} (hwide : wide < Extent.bound) (s : List Char) :
    3 * weight wide s ≤ 0xFFFFFFFF * utf8Length s := by
  unfold Extent.bound at hwide
  induction s with
  | nil => exact Nat.le_refl _
  | cons c rest ih =>
    have hsize := c.utf8Size_pos
    have hglyph : 3 * glyphWeight wide c ≤ 0xFFFFFFFF * c.utf8Size := by
      unfold glyphWeight narrowWeight
      split
      · rename_i hc
        have hthree := utf8Size_of_wide hc
        omega
      · omega
    rw [weight, utf8Length]
    omega

theorem weighable_of_short {m : Measure} {text : List Char}
    (hlength : utf8Length text ≤ 3 * 0x100000000) (hwide : m.wideGlyphWidth < Extent.bound) :
    Weighable m text where
  length_le := Nat.le_trans hlength (by decide)
  weight_lt := by
    intro line hline
    have hle := utf8Length_le_of_mem_lines hline
    have hweight := weight_le_of_utf8Length hwide line
    unfold Size.bound
    omega

/-- A text that can be weighed and addressed is filled without a sum that is no size, the count of
lines included, and so is every text of at most `3 * 2 ^ 32` bytes. Under the largest budget it
comes out as it is if there is no cap. -/
theorem wrap_never_overflows (m : Measure) (text : List Char) :
    (Weighable m text → ∃ out, wrap m text = .ok out) ∧
    (utf8Length text ≤ 3 * 0x100000000 → m.wideGlyphWidth < Extent.bound → Weighable m text) ∧
    (Weighable m text → (Size.bound - 1) / 100 < m.lineWidth → m.maxLines = 0 →
      wrap m text = .ok text) := by
  refine ⟨exists_wrap m text, weighable_of_short, fun h hsaturated hcap => ?_⟩
  obtain ⟨out, hout⟩ := exists_wrap m text h
  have hwithin : ∀ line ∈ lines text,
      weight m.wideGlyphWidth line ≤ m.lineWidth * 100 ∨ IsAtom line := by
    intro line hline
    have hlt := h.weight_lt line hline
    exact .inl (by omega)
  obtain ⟨-, ls, hls, rfl⟩ := wrap_eq_ok.mp hout
  obtain rfl := fillLines_unchanged hls hwithin (.inl hcap)
  rwa [unlines_lines] at hout

/-- Glyphs of the largest weight under the smallest saturated width, and under a cap. -/
theorem wrap_never_overflows_saturated :
    utf8Length "  日 本a \n\nbc  ".toList ≤ 3 * 0x100000000 ∧ 0xFFFFFFFF < Extent.bound ∧
    Weighable ⟨184467440737095517, 0xFFFFFFFF, 0⟩ "  日 本a \n\nbc  ".toList ∧
    wrap ⟨184467440737095517, 0xFFFFFFFF, 0⟩ "  日 本a \n\nbc  ".toList =
      .ok "  日 本a \n\nbc  ".toList ∧
    ∃ out, wrap ⟨1, 0xFFFFFFFF, 2⟩ "  日 本a \n\nbc  ".toList = .ok out := by
  have hlength : utf8Length "  日 本a \n\nbc  ".toList ≤ 3 * 0x100000000 := by decide +kernel
  have hwide : 0xFFFFFFFF < Extent.bound := by decide
  obtain ⟨-, hshort, hsame⟩ := wrap_never_overflows ⟨184467440737095517, 0xFFFFFFFF, 0⟩
    "  日 本a \n\nbc  ".toList
  obtain ⟨hfilled, hshort', -⟩ := wrap_never_overflows ⟨1, 0xFFFFFFFF, 2⟩
    "  日 本a \n\nbc  ".toList
  have hweighable := hshort hlength hwide
  exact ⟨hlength, hwide, hweighable, hsame hweighable (by decide) rfl,
    hfilled (hshort' hlength hwide)⟩

end TwinScreen.Text
