import TwinScreen.Proofs.Text.Compliance

/-!
# Filled text

What holds of every filled text, whatever the text, the widths and the cap. No line is heavier than
the budget unless it is one atom that cannot be divided (`wrap_within_budget`), and filled text is
left as it is when it is filled again (`wrap_idempotent`). A text is filled whenever its lines can
be weighed; some others are too, and the statements hold of them as well.
-/
namespace TwinScreen.Text

theorem budget_le (m : Measure) : m.budget ≤ m.lineWidth * 100 :=
  Nat.min_le_left _ _

/-- Each line of a filled text is within the line width, or it is a single atom. -/
theorem within_of_mem_lines_wrap {m : Measure} {text out : List Char} (h : wrap m text = .ok out) :
    ∀ line ∈ lines out, weight m.wideGlyphWidth line ≤ m.lineWidth * 100 ∨ IsAtom line := by
  intro line hline
  rw [lines_wrap h] at hline
  obtain ⟨r, hr, rfl⟩ := List.mem_map.mp hline
  obtain ⟨source, _, hmem⟩ := exists_line_of_mem_textRows ((m.keep_sublist 0 _).subset hr)
  rcases complies_of_mem_lineRows hmem with hfits | ⟨atom, rfl⟩
  · exact .inl (hfits.trans (budget_le m))
  · have hatom := (division_of_mem_lineRows hmem).text_atom ⟨[], atom⟩ (by simp)
    exact .inr (by simpa [Row.text, join] using hatom)

/-- Every line of a filled text has a weight of at most the line width, or it is one atom with
nothing before, inside or after it. -/
theorem wrap_within_budget (m : Measure) (text : List Char) :
    (Weighable m text → ∃ out, wrap m text = .ok out) ∧
    ∀ out, wrap m text = .ok out → ∀ line ∈ lines out,
      weight m.wideGlyphWidth line ≤ m.lineWidth * 100 ∨ IsAtom line := by
  refine ⟨exists_wrap m text, ?_⟩
  intro out h
  exact within_of_mem_lines_wrap h

/-- With room for two narrow characters a longer word and a heavier glyph stand alone. -/
theorem wrap_within_budget_narrow :
    Weighable ⟨2, 250, 0⟩ "  abc日\u3000 d\n e".toList ∧
    wrap ⟨2, 250, 0⟩ "  abc日\u3000 d\n e".toList = .ok "abc\n日\nd\n e".toList ∧
    ∀ line ∈ lines "abc\n日\nd\n e".toList, weight 250 line ≤ 2 * 100 ∨ IsAtom line := by
  have h : wrap ⟨2, 250, 0⟩ "  abc日\u3000 d\n e".toList = .ok "abc\n日\nd\n e".toList := by
    decide +kernel
  exact ⟨⟨by decide +kernel, by decide +kernel⟩, h, (wrap_within_budget ⟨2, 250, 0⟩ _).2 _ h⟩

/-- Text that was filled is not changed by filling it again with the same measure. The length of the
filled text must be one that can be addressed, as that of every text in memory is. -/
theorem wrap_idempotent (m : Measure) (text : List Char) :
    (Weighable m text → ∃ once, wrap m text = .ok once) ∧
    ∀ once, wrap m text = .ok once → utf8Length once ≤ Size.bytesMax →
      wrap m once = .ok once := by
  refine ⟨exists_wrap m text, ?_⟩
  intro once h hlength
  obtain ⟨twice, htwice⟩ := exists_wrap m once ⟨hlength, weight_lt_of_wrap h⟩
  have hsame : twice = once := by
    rw [wrap_rows htwice, textRows_wrap h, m.keep_map, m.keep_keep, ← m.keep_map, ← wrap_rows h]
  rw [htwice, hsame]

/-- Indentation and trailing blanks that do not fit are gone after the first filling, those that fit
stay; the cap leaves out the last line. -/
theorem wrap_idempotent_capped :
    Weighable ⟨5, 150, 3⟩ "   abcd 日 e  \n gh  \nij".toList ∧
    wrap ⟨5, 150, 3⟩ "   abcd 日 e  \n gh  \nij".toList = .ok "abcd\n日 e\n gh  ".toList ∧
    wrap ⟨5, 150, 3⟩ "abcd\n日 e\n gh  ".toList = .ok "abcd\n日 e\n gh  ".toList := by
  have h : wrap ⟨5, 150, 3⟩ "   abcd 日 e  \n gh  \nij".toList =
      .ok "abcd\n日 e\n gh  ".toList := by
    decide +kernel
  exact ⟨⟨by decide +kernel, by decide +kernel⟩, h,
    (wrap_idempotent ⟨5, 150, 3⟩ _).2 _ h (by decide +kernel)⟩

end TwinScreen.Text
