import TwinScreen.Proofs.Text.Lengths
import TwinScreen.Proofs.Text.Rows

/-!
# Sums of weights and the count of lines

Filling adds up weights and counts lines, and a sum that is no size is a fault. The count stays
below the length of the text, since every line that is opened takes an atom or a line feed of it. So
a text whose length can be addressed and whose lines' weights are sizes is filled (`exists_wrap`),
and the weights of the lines that come out are sizes again (`fillLines_weight_lt`). Under the largest
budget there is no break, so a line that is filled has a weight that is a size
(`weight_lt_of_saturated`).
-/
namespace TwinScreen.Text

/-- The length of the text can be addressed and the weight of each of its lines is a size. -/
structure Weighable (m : Measure) (text : List Char) : Prop where
  length_le : utf8Length text ≤ Size.bytesMax
  weight_lt : ∀ line ∈ lines text, weight m.wideGlyphWidth line < Size.bound

/-! ## The count of lines -/

/-- Behind the first line of a block, each line starts with an atom. -/
theorem opened_le_of_fillAtoms {m : Measure} {opened w : Nat} {trailing : List Char}
    {as : List Atom} {b : Block} (h : fillAtoms m opened w trailing as = .ok b) :
    b.opened ≤ opened + as.length := by
  induction as generalizing opened w b with
  | nil =>
    rw [fillAtoms, fillTrailing_eq] at h
    split at h
    · cases h
      exact Nat.le_refl _
    · cases h
  | cons a more ih =>
    obtain ⟨-, h⟩ := fillAtoms_cons_eq_ok.mp h
    rw [List.length_cons]
    split at h
    · obtain ⟨rest, hrest, rfl⟩ := h
      have hopened := ih hrest
      exact Nat.le_succ_of_le hopened
    · split at h
      · subst h
        exact Nat.le_add_right opened _
      · obtain ⟨-, rest, hrest, rfl⟩ := h
        have hopened := ih hrest
        simp only [Block.breakBefore, Block.push]
        omega

theorem opened_le_of_fillLine {m : Measure} {opened : Nat} {line : List Char} {b : Block}
    (h : fillLine m opened line = .ok b) : b.opened ≤ opened + utf8Length line := by
  have hatoms := length_atoms_le line
  rcases hdiv : atoms line with ⟨_ | ⟨a, more⟩, trailing⟩
  · rw [fillLine_of_nil m opened line trailing hdiv, ← fillAtoms] at h
    have hopened := opened_le_of_fillAtoms h
    rw [List.length_nil] at hopened
    omega
  · obtain ⟨-, h⟩ := (fillLine_cons_eq_ok hdiv).mp h
    rw [hdiv, List.length_cons] at hatoms
    split at h
    all_goals
      obtain ⟨rest, hrest, rfl⟩ := h
      have hopened := opened_le_of_fillAtoms hrest
      simp only [Block.push]
      omega

/-! ## A text of lines that can be weighed is filled -/

/-- Atoms can be placed if neither their weight nor their number overflows. -/
theorem exists_fillAtoms (m : Measure) (opened w : Nat) (trailing : List Char) (as : List Atom)
    (h : w + weight m.wideGlyphWidth (join as trailing) < Size.bound)
    (hcount : opened + as.length < Size.bound) :
    ∃ b, fillAtoms m opened w trailing as = .ok b := by
  induction as generalizing opened w with
  | nil =>
    rw [join] at h
    exact ⟨_, (fillTrailing_eq m opened w trailing).trans (if_pos h)⟩
  | cons a more ih =>
    rw [join, weight_append, weight_append] at h
    rw [List.length_cons] at hcount
    simp only [fillAtoms_cons_eq_ok]
    split
    · obtain ⟨b, hb⟩ := ih opened
        (w + weight m.wideGlyphWidth a.lead + weight m.wideGlyphWidth a.text) (by omega) (by omega)
      exact ⟨_, by omega, b, hb, rfl⟩
    · split
      · exact ⟨_, by omega, rfl⟩
      · obtain ⟨b, hb⟩ := ih (opened + 1) (weight m.wideGlyphWidth a.text) (by omega) (by omega)
        exact ⟨_, by omega, by omega, b, hb, rfl⟩

theorem exists_fillLine (m : Measure) (opened : Nat) (line : List Char)
    (h : weight m.wideGlyphWidth line < Size.bound)
    (hcount : opened + utf8Length line < Size.bound) : ∃ b, fillLine m opened line = .ok b := by
  have hatoms := length_atoms_le line
  rcases hdiv : atoms line with ⟨_ | ⟨a, more⟩, trailing⟩
  · obtain ⟨_, hjoin⟩ := (atoms_eq_iff line [] trailing).mp hdiv
    rw [← hjoin, join] at h
    rw [fillLine_of_nil m opened line trailing hdiv, fillTrailing_eq, if_pos (by omega)]
    exact ⟨_, rfl⟩
  · obtain ⟨_, hjoin⟩ := (atoms_eq_iff line (a :: more) trailing).mp hdiv
    rw [← hjoin, join, weight_append, weight_append] at h
    rw [hdiv, List.length_cons] at hatoms
    simp only [fillLine_cons_eq_ok hdiv]
    split
    · obtain ⟨b, hb⟩ := exists_fillAtoms m opened
        (weight m.wideGlyphWidth a.lead + weight m.wideGlyphWidth a.text) trailing more (by omega)
        (by omega)
      exact ⟨_, by omega, b, hb, rfl⟩
    · obtain ⟨b, hb⟩ := exists_fillAtoms m opened (weight m.wideGlyphWidth a.text) trailing more
        (by omega) (by omega)
      exact ⟨_, by omega, b, hb, rfl⟩

/-- The count is at most the length of the lines so far, each with a line feed behind it. -/
theorem exists_fillLines (m : Measure) (opened : Nat) (ls : List (List Char))
    (h : ∀ line ∈ ls, weight m.wideGlyphWidth line < Size.bound)
    (hcount : opened + brokenLength ls < Size.bound) :
    ∃ out, fillLines m opened ls = .ok out := by
  induction ls generalizing opened with
  | nil => exact ⟨[], rfl⟩
  | cons line others ih =>
    simp only [List.mem_cons, forall_eq_or_imp] at h
    rw [brokenLength] at hcount
    obtain ⟨b, hb⟩ := exists_fillLine m (opened + 1) line h.1 (by omega)
    have hopened := opened_le_of_fillLine hb
    obtain ⟨rest, hrest⟩ := ih b.opened h.2 (by omega)
    simp only [fillLines_cons_eq_ok]
    split
    · exact ⟨_, rfl⟩
    · by_cases hcut : b.cut
      · exact ⟨_, by omega, b, hb, by rw [if_pos hcut]⟩
      · exact ⟨_, by omega, b, hb, by rw [if_neg hcut]; exact ⟨rest, hrest, rfl⟩⟩

/-- A text is filled without a fault if its lines can be weighed. -/
theorem exists_wrap (m : Measure) (text : List Char) (h : Weighable m text) :
    ∃ out, wrap m text = .ok out := by
  have hlength := h.length_le
  have hlines := utf8Length_lines text
  have hbound : 2 * Size.bytesMax + 2 = Size.bound := rfl
  obtain ⟨ls, hls⟩ := exists_fillLines m 0 (lines text) h.weight_lt (by omega)
  exact ⟨_, wrap_eq_ok.mpr ⟨by omega, ls, hls, rfl⟩⟩

/-! ## Filled lines can be weighed -/

theorem weight_trail_le (m : Measure) (w : Nat) (trailing : List Char) :
    weight m.wideGlyphWidth (m.trail w trailing) ≤ weight m.wideGlyphWidth trailing := by
  unfold Measure.trail
  split
  · exact Nat.le_refl _
  · exact Nat.zero_le _

theorem fillTrailing_weight_lt {m : Measure} {opened w : Nat} {trailing : List Char} {b : Block}
    (h : fillTrailing m opened w trailing = .ok b) :
    w + weight m.wideGlyphWidth b.first < Size.bound ∧ b.later = [] := by
  have hle := weight_trail_le m w trailing
  rw [fillTrailing_eq] at h
  split at h
  · cases h
    exact ⟨by dsimp only; omega, rfl⟩
  · cases h

/-- Lines that have been filled weigh less than the bound. -/
theorem fillAtoms_weight_lt {m : Measure} {opened w : Nat} {trailing : List Char}
    {as : List Atom} {b : Block} (h : fillAtoms m opened w trailing as = .ok b)
    (hw : w < Size.bound) :
    w + weight m.wideGlyphWidth b.first < Size.bound ∧
    ∀ line ∈ b.later, weight m.wideGlyphWidth line < Size.bound := by
  induction as generalizing opened w b with
  | nil =>
    obtain ⟨hfirst, hlater⟩ := fillTrailing_weight_lt h
    exact ⟨hfirst, by simp [hlater]⟩
  | cons a more ih =>
    obtain ⟨hsum, h⟩ := fillAtoms_cons_eq_ok.mp h
    split at h
    · obtain ⟨rest, hrest, rfl⟩ := h
      obtain ⟨hfirst, hlater⟩ := ih hrest hsum
      refine ⟨?_, hlater⟩
      simp only [Block.push, weight_append]
      omega
    · split at h
      · subst h
        exact ⟨hw, by simp⟩
      · obtain ⟨-, rest, hrest, rfl⟩ := h
        obtain ⟨hfirst, hlater⟩ := ih hrest (by omega)
        refine ⟨hw, ?_⟩
        simp only [Block.breakBefore, Block.lines, Block.push, List.mem_cons, forall_eq_or_imp,
          weight_append]
        exact ⟨hfirst, hlater⟩

theorem fillLine_weight_lt {m : Measure} {opened : Nat} {line : List Char} {b : Block}
    (h : fillLine m opened line = .ok b) :
    ∀ line ∈ b.lines, weight m.wideGlyphWidth line < Size.bound := by
  simp only [Block.lines, List.mem_cons, forall_eq_or_imp]
  rcases hdiv : atoms line with ⟨_ | ⟨a, more⟩, trailing⟩
  · rw [fillLine_of_nil m opened line trailing hdiv] at h
    obtain ⟨hfirst, hlater⟩ := fillTrailing_weight_lt h
    exact ⟨by omega, by simp [hlater]⟩
  · obtain ⟨hsum, h⟩ := (fillLine_cons_eq_ok hdiv).mp h
    split at h
    · obtain ⟨rest, hrest, rfl⟩ := h
      obtain ⟨hfirst, hlater⟩ := fillAtoms_weight_lt hrest hsum
      exact ⟨by simp only [Block.push, weight_append]; omega, hlater⟩
    · obtain ⟨rest, hrest, rfl⟩ := h
      obtain ⟨hfirst, hlater⟩ := fillAtoms_weight_lt hrest (by omega)
      exact ⟨by simp only [Block.push, weight_append]; omega, hlater⟩

theorem fillLines_weight_lt (m : Measure) (opened : Nat) (ls out : List (List Char))
    (h : fillLines m opened ls = .ok out) :
    ∀ line ∈ out, weight m.wideGlyphWidth line < Size.bound := by
  induction ls generalizing opened out with
  | nil =>
    cases h
    simp
  | cons line others ih =>
    rw [fillLines_cons_eq_ok] at h
    split at h
    · simp [h]
    · obtain ⟨-, b, hblock, h⟩ := h
      have hlines := fillLine_weight_lt hblock
      split at h
      · rwa [h]
      · obtain ⟨rest, hrest, rfl⟩ := h
        exact List.forall_mem_append.mpr ⟨hlines, ih b.opened rest hrest⟩

/-! ## The largest budget -/

/-- The budget is the line width, but for widths beyond all weights. -/
theorem budget_eq_or (m : Measure) :
    m.budget = m.lineWidth * 100 ∨ Size.bound ≤ m.budget + 1 := by
  unfold Measure.budget Size.saturatingMul narrowWeight Size.bound
  omega

/-- Under the largest budget every sum that is a size fits, so the sums go on to the end of the
line. -/
theorem fillAtoms_lt_of_saturated {m : Measure} (hm : Size.bound ≤ m.budget + 1)
    {opened w : Nat} {trailing : List Char} {as : List Atom} {b : Block}
    (h : fillAtoms m opened w trailing as = .ok b) :
    w + weight m.wideGlyphWidth (join as trailing) < Size.bound := by
  induction as generalizing w b with
  | nil =>
    rw [fillAtoms, fillTrailing_eq] at h
    split at h
    · rename_i hsum
      exact hsum
    · cases h
  | cons a more ih =>
    obtain ⟨hsum, h⟩ := fillAtoms_cons_eq_ok.mp h
    rw [if_pos (by omega)] at h
    obtain ⟨rest, hrest, -⟩ := h
    have hmore := ih hrest
    rw [join, weight_append, weight_append]
    omega

theorem weight_lt_of_saturated {m : Measure} (hm : Size.bound ≤ m.budget + 1) {opened : Nat}
    {line : List Char} {b : Block} (h : fillLine m opened line = .ok b) :
    weight m.wideGlyphWidth line < Size.bound := by
  rcases hdiv : atoms line with ⟨_ | ⟨a, more⟩, trailing⟩
  · obtain ⟨_, rfl⟩ := (atoms_eq_iff line [] trailing).mp hdiv
    rw [fillLine_of_nil m opened _ trailing hdiv, ← fillAtoms] at h
    have hsum := fillAtoms_lt_of_saturated hm h
    omega
  · obtain ⟨_, rfl⟩ := (atoms_eq_iff line (a :: more) trailing).mp hdiv
    obtain ⟨hsum, h⟩ := (fillLine_cons_eq_ok hdiv).mp h
    rw [if_pos (by omega)] at h
    obtain ⟨rest, hrest, -⟩ := h
    have hmore := fillAtoms_lt_of_saturated hm hrest
    rw [join, weight_append, weight_append]
    omega

/-- A line that is filled and no heavier than the line width is within the budget. -/
theorem weight_le_budget_of_fillLine {m : Measure} {opened : Nat} {line : List Char} {b : Block}
    (h : fillLine m opened line = .ok b)
    (hweight : weight m.wideGlyphWidth line ≤ m.lineWidth * 100) :
    weight m.wideGlyphWidth line ≤ m.budget := by
  rcases budget_eq_or m with hexact | hlargest
  · rwa [hexact]
  · have hlt := weight_lt_of_saturated hlargest h
    omega

end TwinScreen.Text
