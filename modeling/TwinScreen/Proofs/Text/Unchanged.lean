import TwinScreen.Proofs.Text.Filled

/-!
# Texts that filling leaves alone

Filling gives back the texts that it could have made itself: each line is light enough or a single
atom, and the cap admits all of them (`wrap_unchanged_iff`). Such a line is its own and only row,
with its indentation, its inner spacing and its trailing blanks as they are.
-/
namespace TwinScreen.Text

/-- A line that is light enough or a single atom, and that can be filled, is its only row. -/
theorem exists_row_of_fillLine {m : Measure} {opened : Nat} {line : List Char} {b : Block}
    (h : fillLine m opened line = .ok b)
    (hwithin : weight m.wideGlyphWidth line ≤ m.lineWidth * 100 ∨ IsAtom line) :
    ∃ r : Row, lineRows m line = [r] ∧ r.text = line := by
  obtain ⟨r, rfl, hdivision, hcomplies⟩ :
      ∃ r : Row, r.text = line ∧ IsDivision r.atoms r.trailing ∧ r.Complies m := by
    rcases hwithin with hweight | hatom
    · refine ⟨⟨(atoms line).1, (atoms line).2⟩, join_atoms line, isDivision_atoms line, .inl ?_⟩
      rw [Row.text, join_atoms]
      exact weight_le_budget_of_fillLine h hweight
    · refine ⟨⟨[⟨[], line⟩], []⟩, by simp [Row.text, join], ?_, .inr ⟨line, rfl⟩⟩
      constructor <;> simp [AllBlank, hatom]
  exact ⟨r, lineRows_text hdivision hcomplies, rfl⟩

/-- Filling such a line opens no line but its own. -/
theorem fillLine_unchanged {m : Measure} {opened : Nat} {line : List Char} {b : Block}
    (h : fillLine m (opened + 1) line = .ok b) (hopen : m.reached opened = false)
    (hwithin : weight m.wideGlyphWidth line ≤ m.lineWidth * 100 ∨ IsAtom line) :
    b.lines = [line] ∧ b.cut = false ∧ b.opened = opened + 1 := by
  obtain ⟨r, hrows, htext⟩ := exists_row_of_fillLine h hwithin
  obtain ⟨hlines, hcut, hfull⟩ := fillLine_rows h hopen
  rw [hrows] at hlines hcut hfull
  have hwhole : b.cut = false := by
    by_contra hc
    have hshort := hcut (by simpa using hc)
    simp [Block.lines] at hshort
  refine ⟨?_, hwhole, hfull hwhole⟩
  rw [hlines, List.map_singleton, htext, m.keep_cons _ _ _ hopen]
  simp [Measure.keep]

/-- Lines that are each light enough or a single atom come out as they are, if the cap leaves room
for all of them. -/
theorem fillLines_unchanged {m : Measure} {opened : Nat} {ls out : List (List Char)}
    (h : fillLines m opened ls = .ok out)
    (hwithin : ∀ line ∈ ls, weight m.wideGlyphWidth line ≤ m.lineWidth * 100 ∨ IsAtom line)
    (hroom : m.maxLines = 0 ∨ opened + ls.length ≤ m.maxLines) : out = ls := by
  induction ls generalizing opened out with
  | nil =>
    cases h
    rfl
  | cons line others ih =>
    rw [List.length_cons] at hroom
    simp only [List.mem_cons, forall_eq_or_imp] at hwithin
    have hopen : m.reached opened = false := by
      simp only [Measure.reached, Bool.and_eq_false_iff, decide_eq_false_iff_not]
      omega
    rw [fillLines_cons_eq_ok, hopen, if_neg Bool.false_ne_true] at h
    obtain ⟨-, b, hb, h⟩ := h
    obtain ⟨hlines, hcut, hopened⟩ := fillLine_unchanged hb hopen hwithin.1
    rw [hcut, if_neg Bool.false_ne_true] at h
    obtain ⟨rest, hrest, rfl⟩ := h
    rw [hlines, ih hrest hwithin.2 (by omega)]
    rfl

/-- The cap admits no more lines than it says. -/
theorem length_lines_wrap_le {m : Measure} {text out : List Char} (h : wrap m text = .ok out) :
    m.maxLines = 0 ∨ (lines out).length ≤ m.maxLines := by
  rw [lines_wrap h, List.length_map]
  unfold Measure.keep
  split
  · rename_i hnone
    exact .inl hnone
  · right
    rw [List.length_take]
    omega

/-- A text that can be filled is left as it is exactly when each of its lines has a weight of at
most the line width or is one atom with nothing before, inside or after it, and the cap admits as
many lines as the text has. -/
theorem wrap_unchanged_iff (m : Measure) (text : List Char) :
    (Weighable m text → ∃ out, wrap m text = .ok out) ∧
    ∀ out, wrap m text = .ok out →
      (out = text ↔
        (∀ line ∈ lines text,
          weight m.wideGlyphWidth line ≤ m.lineWidth * 100 ∨ IsAtom line) ∧
        (m.maxLines = 0 ∨ (lines text).length ≤ m.maxLines)) := by
  refine ⟨exists_wrap m text, ?_⟩
  intro out h
  constructor
  · rintro rfl
    exact ⟨within_of_mem_lines_wrap h, length_lines_wrap_le h⟩
  · rintro ⟨hwithin, hroom⟩
    obtain ⟨-, ls, hls, rfl⟩ := wrap_eq_ok.mp h
    rw [fillLines_unchanged hls hwithin (by omega), unlines_lines]

/-- Indentation, inner spacing and trailing blanks that fit stay, and so does a long word that
stands alone; the cap is just reached. A blank behind the long word would be lost. -/
theorem wrap_unchanged_iff_spaced :
    Weighable ⟨5, 150, 4⟩ "  a\tb\n\nabcdefgh\n日 \u3000".toList ∧
    wrap ⟨5, 150, 4⟩ "  a\tb\n\nabcdefgh\n日 \u3000".toList =
      .ok "  a\tb\n\nabcdefgh\n日 \u3000".toList ∧
    (∀ line ∈ lines "  a\tb\n\nabcdefgh\n日 \u3000".toList,
      weight 150 line ≤ 5 * 100 ∨ IsAtom line) ∧
    wrap ⟨5, 150, 4⟩ "abcdefgh ".toList = .ok "abcdefgh".toList ∧
    ¬ ∀ line ∈ lines "abcdefgh ".toList, weight 150 line ≤ 5 * 100 ∨ IsAtom line := by
  have hsame : wrap ⟨5, 150, 4⟩ "  a\tb\n\nabcdefgh\n日 \u3000".toList =
      .ok "  a\tb\n\nabcdefgh\n日 \u3000".toList := by
    decide +kernel
  have hchanged : wrap ⟨5, 150, 4⟩ "abcdefgh ".toList = .ok "abcdefgh".toList := by
    decide +kernel
  refine ⟨⟨by decide +kernel, by decide +kernel⟩, hsame,
    (((wrap_unchanged_iff ⟨5, 150, 4⟩ _).2 _ hsame).mp rfl).1, hchanged, ?_⟩
  intro hall
  have hroom : (lines "abcdefgh ".toList).length ≤ 4 := by decide +kernel
  have heq := ((wrap_unchanged_iff ⟨5, 150, 4⟩ _).2 _ hchanged).mpr ⟨hall, .inr hroom⟩
  exact absurd heq (by decide +kernel)

end TwinScreen.Text
