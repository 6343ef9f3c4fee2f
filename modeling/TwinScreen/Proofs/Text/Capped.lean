import TwinScreen.Proofs.Text.Compliance

/-!
# The cap on lines

A cap cuts a filled text off and does nothing else. The rows of a text do not depend on the cap, and
a text that is filled without a cap is filled under each, since filling under a cap only stops
earlier. So the lines that come out under a cap are the first ones of those that come out without
(`wrap_capped`).
-/
namespace TwinScreen.Text

/-- The same measure without a cap. -/
def Measure.uncapped (m : Measure) : Measure := { m with maxLines := 0 }

@[simp] theorem Measure.uncapped_budget (m : Measure) : m.uncapped.budget = m.budget := rfl

@[simp] theorem Measure.uncapped_wideGlyphWidth (m : Measure) :
    m.uncapped.wideGlyphWidth = m.wideGlyphWidth := rfl

@[simp] theorem Measure.uncapped_reached (m : Measure) (opened : Nat) :
    m.uncapped.reached opened = false := rfl

@[simp] theorem Measure.uncapped_keep {α : Type} (m : Measure) (opened : Nat) (coming : List α) :
    m.uncapped.keep opened coming = coming := rfl

/-! ## Rows do not depend on the cap -/

/-- The cap has no part in how a line is divided into rows. -/
theorem rowsFrom_uncapped (m : Measure) (trailing : List Char) (w : Nat) (as : List Atom) :
    rowsFrom m.uncapped trailing w as = rowsFrom m trailing w as := by
  induction as generalizing w with
  | nil => rfl
  | cons a more ih =>
    simp only [rowsFrom, Measure.uncapped_budget, Measure.uncapped_wideGlyphWidth, ih]

theorem textRows_uncapped (m : Measure) (text : List Char) :
    textRows m.uncapped text = textRows m text := by
  have hline : ∀ line, lineRows m.uncapped line = lineRows m line := by
    intro line
    unfold lineRows rowsOf
    split
    · rfl
    · simp only [Measure.uncapped_budget, Measure.uncapped_wideGlyphWidth, rowsFrom_uncapped]
  rw [textRows, textRows, funext hline]

/-! ## What is filled without a cap is filled under a cap -/

/-- Atoms that can be placed without a cap can be placed with one, and no more lines are opened. -/
theorem exists_fillAtoms_of_uncapped {m : Measure} {opened opened' w : Nat}
    {trailing : List Char} {as : List Atom} {b : Block}
    (h : fillAtoms m.uncapped opened w trailing as = .ok b) (hle : opened' ≤ opened) :
    ∃ b', fillAtoms m opened' w trailing as = .ok b' ∧ b'.opened ≤ b.opened := by
  induction as generalizing opened opened' w b with
  | nil =>
    rw [fillAtoms, fillTrailing_eq] at h ⊢
    split at h
    · rename_i hsum
      cases h
      exact ⟨_, if_pos hsum, hle⟩
    · cases h
  | cons a more ih =>
    rw [fillAtoms_cons_eq_ok] at h
    simp only [Measure.uncapped_budget, Measure.uncapped_wideGlyphWidth, Measure.uncapped_reached,
      Bool.false_eq_true, if_false] at h
    obtain ⟨hsum, h⟩ := h
    simp only [fillAtoms_cons_eq_ok]
    split at h
    · rename_i hfits
      obtain ⟨rest, hrest, rfl⟩ := h
      obtain ⟨b', hb', hopened⟩ := ih hrest hle
      simp only [if_pos hfits]
      exact ⟨_, ⟨hsum, b', hb', rfl⟩, hopened⟩
    · rename_i hfull
      obtain ⟨hcount, rest, hrest, rfl⟩ := h
      simp only [if_neg hfull]
      split
      · have hmore := (fillAtoms_shows hrest).opened
        refine ⟨_, ⟨hsum, rfl⟩, ?_⟩
        simp only [Block.breakBefore, Block.push]
        omega
      · obtain ⟨b', hb', hopened⟩ := ih hrest (Nat.succ_le_succ hle)
        exact ⟨_, ⟨hsum, by omega, b', hb', rfl⟩, hopened⟩

theorem exists_fillLine_of_uncapped {m : Measure} {opened opened' : Nat} {line : List Char}
    {b : Block} (h : fillLine m.uncapped opened line = .ok b) (hle : opened' ≤ opened) :
    ∃ b', fillLine m opened' line = .ok b' ∧ b'.opened ≤ b.opened := by
  rcases hdiv : atoms line with ⟨_ | ⟨a, more⟩, trailing⟩
  · rw [fillLine_of_nil _ _ line trailing hdiv, ← fillAtoms] at h ⊢
    exact exists_fillAtoms_of_uncapped h hle
  · rw [fillLine_cons_eq_ok hdiv, m.uncapped_budget, m.uncapped_wideGlyphWidth] at h
    obtain ⟨hsum, h⟩ := h
    simp only [fillLine_cons_eq_ok hdiv]
    split at h
    all_goals
      rename_i hfits
      obtain ⟨rest, hrest, rfl⟩ := h
      obtain ⟨b', hb', hopened⟩ := exists_fillAtoms_of_uncapped hrest hle
    · simp only [if_pos hfits]
      exact ⟨_, ⟨hsum, b', hb', rfl⟩, hopened⟩
    · simp only [if_neg hfits]
      exact ⟨_, ⟨hsum, b', hb', rfl⟩, hopened⟩

/-- Without a cap, nothing is cut off. -/
theorem not_cut_of_uncapped {m : Measure} {opened : Nat} {line : List Char} {b : Block}
    (h : fillLine m.uncapped opened line = .ok b) : b.cut = false := by
  have hshow := fillLine_shows h
  have hall :
      ¬ b.later.length < (rowsOf m.uncapped (atoms line).2 (atoms line).1).later.length := by
    rw [hshow.later, Measure.uncapped_keep, List.length_map]
    exact Nat.lt_irrefl _
  rw [← hshow.cut] at hall
  simpa using hall

theorem exists_fillLines_of_uncapped {m : Measure} {opened opened' : Nat}
    {ls out : List (List Char)} (h : fillLines m.uncapped opened ls = .ok out)
    (hle : opened' ≤ opened) : ∃ out', fillLines m opened' ls = .ok out' := by
  induction ls generalizing opened opened' out with
  | nil => exact ⟨[], rfl⟩
  | cons line others ih =>
    rw [fillLines_cons_eq_ok, Measure.uncapped_reached, if_neg Bool.false_ne_true] at h
    obtain ⟨hcount, b, hb, h⟩ := h
    rw [not_cut_of_uncapped hb, if_neg Bool.false_ne_true] at h
    obtain ⟨rest, hrest, -⟩ := h
    obtain ⟨b', hb', hopened⟩ := exists_fillLine_of_uncapped hb (Nat.succ_le_succ hle)
    obtain ⟨rest', hrest'⟩ := ih hrest hopened
    simp only [fillLines_cons_eq_ok]
    split
    · exact ⟨_, rfl⟩
    · by_cases hcut : b'.cut
      · exact ⟨_, by omega, b', hb', by rw [if_pos hcut]⟩
      · exact ⟨_, by omega, b', hb', by rw [if_neg hcut]; exact ⟨rest', hrest', rfl⟩⟩

theorem exists_wrap_of_uncapped {m : Measure} {text full : List Char}
    (h : wrap m.uncapped text = .ok full) : ∃ capped, wrap m text = .ok capped := by
  obtain ⟨hroom, ls, hls, -⟩ := wrap_eq_ok.mp h
  obtain ⟨ls', hls'⟩ := exists_fillLines_of_uncapped hls (Nat.le_refl 0)
  exact ⟨_, wrap_eq_ok.mpr ⟨hroom, ls', hls', rfl⟩⟩

/-! ## The first lines -/

/-- The first lines of a text are the start of it. -/
theorem unlines_take_isPrefix (ls : List (List Char)) (n : Nat) :
    unlines (ls.take n) <+: unlines ls := by
  have hparts := List.take_append_drop n ls
  rcases eq_or_ne (ls.take n) [] with hfirst | hfirst
  · rw [hfirst]
    exact List.nil_prefix
  · rcases eq_or_ne (ls.drop n) [] with hrest | hrest
    · rw [hrest, List.append_nil] at hparts
      have hwhole : unlines (ls.take n) = unlines ls := congrArg unlines hparts
      exact hwhole ▸ List.prefix_refl _
    · have hall := unlines_append _ _ hfirst hrest
      rw [hparts] at hall
      rw [hall]
      exact List.prefix_append _ _

/-- The lines of a text filled under a cap are the first lines of the same text filled without one,
as many as the cap lets through, so what comes out is the start of the whole. -/
theorem wrap_capped (m : Measure) (text : List Char) (hcap : 0 < m.maxLines) :
    (Weighable m text → ∃ full, wrap m.uncapped text = .ok full) ∧
    ∀ full, wrap m.uncapped text = .ok full → ∃ capped, wrap m text = .ok capped ∧
      lines capped = (lines full).take (min m.maxLines (lines full).length) ∧
      (lines capped).length ≤ m.maxLines ∧ capped <+: full := by
  refine ⟨fun h => exists_wrap m.uncapped text ⟨h.length_le, h.weight_lt⟩, ?_⟩
  intro full hfull
  obtain ⟨capped, hcapped⟩ := exists_wrap_of_uncapped hfull
  have hlines : lines capped = (lines full).take m.maxLines := by
    rw [lines_wrap hcapped, lines_wrap hfull, textRows_uncapped, Measure.uncapped_keep,
      Measure.keep, if_neg (Nat.pos_iff_ne_zero.mp hcap), Nat.sub_zero, List.map_take]
  refine ⟨capped, hcapped, ?_, ?_, ?_⟩
  · rw [hlines, List.take_eq_take_min]
  · rw [hlines]
    exact List.length_take_le _ _
  · have hstart := unlines_take_isPrefix (lines full) m.maxLines
    rwa [← hlines, unlines_lines, unlines_lines] at hstart

/-- The cap strikes inside of a line of the text, so its other atoms and its trailing blanks are
left out. -/
theorem wrap_capped_within :
    0 < (⟨5, 150, 1⟩ : Measure).maxLines ∧
    wrap ⟨5, 150, 0⟩ "ab cde f  \n\ng日".toList = .ok "ab\ncde f\n\ng日".toList ∧
    ∃ capped, wrap ⟨5, 150, 1⟩ "ab cde f  \n\ng日".toList = .ok capped ∧
      lines capped = (lines "ab\ncde f\n\ng日".toList).take
        (min 1 (lines "ab\ncde f\n\ng日".toList).length) ∧
      (lines capped).length ≤ 1 ∧ capped <+: "ab\ncde f\n\ng日".toList := by
  have h : wrap ⟨5, 150, 0⟩ "ab cde f  \n\ng日".toList = .ok "ab\ncde f\n\ng日".toList := by
    decide +kernel
  exact ⟨by decide, h, (wrap_capped ⟨5, 150, 1⟩ _ (by decide)).2 _ h⟩

end TwinScreen.Text
