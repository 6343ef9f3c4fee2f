import TwinScreen.Proofs.Text.Sums

/-!
# Rows that comply

Every row is divided as a line should be, weighs no more than the budget or is one atom alone, and
lost nothing but blanks. A row with these properties is its own and only row, so the lines that come
out of filling are the rows (`lines_wrap`) and stay what they are when they are filled again
(`lineRows_text`).
-/
namespace TwinScreen.Text

/-- The row weighs no more than the budget, or it is one atom and nothing else. -/
def Row.Complies (m : Measure) (r : Row) : Prop :=
  weight m.wideGlyphWidth r.text ≤ m.budget ∨ ∃ text, r = ⟨[⟨[], text⟩], []⟩

/-- Trailing blanks stay if they fit, and all of them go otherwise. -/
theorem trail_eq_or (m : Measure) (w : Nat) (trailing : List Char) :
    m.trail w trailing = trailing ∧ w + weight m.wideGlyphWidth trailing ≤ m.budget ∨
      m.trail w trailing = [] := by
  unfold Measure.trail
  split
  · rename_i hfits
    exact .inl ⟨rfl, hfits⟩
  · exact .inr rfl

/-! ## Weight -/

/-- The row fits on a line that weighs `w` already, or it is empty. -/
def Row.FitsBehind (m : Measure) (w : Nat) (r : Row) : Prop :=
  w + weight m.wideGlyphWidth r.text ≤ m.budget ∨ r = ⟨[], []⟩

theorem Row.FitsBehind.push {m : Measure} {w : Nat} {r : Row} {a : Atom}
    (h : r.FitsBehind m (w + weight m.wideGlyphWidth a.lead + weight m.wideGlyphWidth a.text))
    (hfits : w + weight m.wideGlyphWidth a.lead + weight m.wideGlyphWidth a.text ≤ m.budget) :
    w + weight m.wideGlyphWidth (r.push a).text ≤ m.budget := by
  rw [text_push, weight_append, weight_append]
  rcases h with hrow | rfl
  · omega
  · simp only [text_of_nil, weight]
    omega

/-- An atom that starts a row has no lead there, and the row may hold it whatever it weighs. -/
theorem Row.FitsBehind.start {m : Measure} {r : Row} {text : List Char}
    (h : r.FitsBehind m (weight m.wideGlyphWidth text)) : (r.push ⟨[], text⟩).Complies m := by
  rcases h with hrow | rfl
  · exact .inl (by simpa [weight_append] using hrow)
  · exact .inr ⟨text, rfl⟩

/-- Rows are filled only as far as they comply. -/
theorem rowsFrom_fits (m : Measure) (trailing : List Char) (w : Nat) (as : List Atom) :
    (rowsFrom m trailing w as).first.FitsBehind m w ∧
    ∀ r ∈ (rowsFrom m trailing w as).later, r.Complies m := by
  induction as generalizing w with
  | nil =>
    refine ⟨?_, by simp [rowsFrom]⟩
    rcases trail_eq_or m w trailing with ⟨hkept, hfits⟩ | hdropped
    · exact .inl (by simpa [rowsFrom, hkept] using hfits)
    · exact .inr (by simp [rowsFrom, hdropped])
  | cons a more ih =>
    rw [rowsFrom]
    split
    · rename_i hfits
      obtain ⟨hrow, hlater⟩ :=
        ih (w + weight m.wideGlyphWidth a.lead + weight m.wideGlyphWidth a.text)
      exact ⟨.inl (hrow.push hfits), hlater⟩
    · obtain ⟨hrow, hlater⟩ := ih (weight m.wideGlyphWidth a.text)
      refine ⟨.inr rfl, ?_⟩
      simp only [Rows.later_below, Rows.first_push, Rows.later_push, List.mem_cons,
        forall_eq_or_imp]
      exact ⟨hrow.start, hlater⟩

theorem rowsOf_complies (m : Measure) (trailing : List Char) (as : List Atom) :
    ∀ r ∈ (rowsOf m trailing as).all, r.Complies m := by
  simp only [Rows.all, List.mem_cons, forall_eq_or_imp]
  cases as with
  | nil =>
    obtain ⟨hrow, hlater⟩ := rowsFrom_fits m trailing 0 []
    refine ⟨.inl ?_, hlater⟩
    rcases hrow with hrow | hrow
    · simpa [rowsOf] using hrow
    · simp [rowsOf, hrow, weight]
  | cons a more =>
    rw [rowsOf]
    split
    · rename_i hfits
      obtain ⟨hrow, hlater⟩ := rowsFrom_fits m trailing
        (0 + weight m.wideGlyphWidth a.lead + weight m.wideGlyphWidth a.text) more
      have hfirst := hrow.push (by omega)
      simp only [Nat.zero_add] at hfirst hlater
      exact ⟨.inl hfirst, hlater⟩
    · obtain ⟨hrow, hlater⟩ := rowsFrom_fits m trailing (weight m.wideGlyphWidth a.text) more
      exact ⟨hrow.start, hlater⟩

/-! ## Division -/

theorem trail_blank (m : Measure) (w : Nat) (trailing : List Char) (h : AllBlank trailing) :
    AllBlank (m.trail w trailing) := by
  rcases trail_eq_or m w trailing with ⟨hkept, _⟩ | hdropped
  · rwa [hkept]
  · simp [hdropped, AllBlank]

/-- A row starts with the first of the atoms that are left, if it goes on with any. -/
theorem head_rowsFrom (m : Measure) (trailing : List Char) (w : Nat) (as : List Atom) :
    ∀ b ∈ (rowsFrom m trailing w as).first.atoms.head?, b ∈ as.head? := by
  intro b hb
  cases as with
  | nil => simp [rowsFrom] at hb
  | cons a more =>
    rw [rowsFrom] at hb
    split at hb
    · simpa [Row.push] using hb
    · simp at hb

theorem rowsFrom_push_division (m : Measure) (trailing : List Char) (w : Nat) (a : Atom)
    (more : List Atom) (h : IsDivision (a :: more) trailing)
    (ih : ∀ r ∈ (rowsFrom m trailing w more).all, IsDivision r.atoms r.trailing) :
    ∀ r ∈ ((rowsFrom m trailing w more).push a).all, IsDivision r.atoms r.trailing := by
  simp only [Rows.all, Rows.first_push, Rows.later_push, List.mem_cons, forall_eq_or_imp] at ih ⊢
  refine ⟨?_, ih.2⟩
  refine IsDivision.cons (h.lead_blank a (by simp)) (h.text_atom a (by simp)) ?_ ih.1
  intro b hb
  obtain ⟨others, rfl⟩ := List.head?_eq_some_iff.mp (head_rowsFrom m trailing w more b hb)
  exact (List.isChain_cons_cons.mp h.apart).1

/-- Each row is a divided line of its own. -/
theorem rowsFrom_division (m : Measure) (trailing : List Char) (w : Nat) (as : List Atom)
    (h : IsDivision as trailing) :
    ∀ r ∈ (rowsFrom m trailing w as).all, IsDivision r.atoms r.trailing := by
  induction as generalizing w with
  | nil =>
    have htrail := trail_blank m w trailing h.trailing_blank
    intro r hr
    simp only [rowsFrom, Rows.all, List.mem_singleton] at hr
    subst hr
    exact ⟨by simp, by simp, List.isChain_nil, htrail⟩
  | cons a more ih =>
    rw [rowsFrom]
    split
    · exact rowsFrom_push_division m trailing _ a more h (ih _ h.tail)
    · have hbelow := rowsFrom_push_division m trailing _ ⟨[], a.text⟩ more h.dropLead
        (ih (weight m.wideGlyphWidth a.text) h.tail)
      intro r hr
      rcases List.mem_cons.mp hr with rfl | hr
      · exact ⟨by simp, by simp, List.isChain_nil, by simp [AllBlank]⟩
      · exact hbelow r hr

theorem rowsOf_division (m : Measure) (trailing : List Char) (as : List Atom)
    (h : IsDivision as trailing) :
    ∀ r ∈ (rowsOf m trailing as).all, IsDivision r.atoms r.trailing := by
  cases as with
  | nil => exact rowsFrom_division m trailing 0 [] h
  | cons a more =>
    rw [rowsOf]
    split
    · exact rowsFrom_push_division m trailing _ a more h
        (rowsFrom_division m trailing _ more h.tail)
    · exact rowsFrom_push_division m trailing _ ⟨[], a.text⟩ more h.dropLead
        (rowsFrom_division m trailing _ more h.tail)

/-! ## Characters -/

theorem trail_sublist (m : Measure) (w : Nat) (trailing : List Char) :
    (m.trail w trailing).Sublist trailing := by
  rcases trail_eq_or m w trailing with ⟨hkept, _⟩ | hdropped
  · rw [hkept]
  · simp [hdropped]

/-- The rows hold the characters of the line in order, some of its blanks left out. -/
def Rows.content (rows : Rows) : List Char := (rows.all.map Row.text).flatten

theorem content_push (rows : Rows) (a : Atom) :
    (rows.push a).content = a.lead ++ a.text ++ rows.content := by
  simp [Rows.content, Rows.all]

theorem content_below (rows : Rows) : rows.below.content = rows.content := by
  simp [Rows.content, Rows.all]

theorem rowsFrom_sublist (m : Measure) (trailing : List Char) (w : Nat) (as : List Atom) :
    (rowsFrom m trailing w as).content.Sublist (join as trailing) := by
  induction as generalizing w with
  | nil => simpa [rowsFrom, Rows.content, Rows.all, join] using trail_sublist m w trailing
  | cons a more ih =>
    rw [rowsFrom, join]
    split
    · rw [content_push]
      exact (List.Sublist.refl _).append (ih _)
    · have hbelow := (List.Sublist.refl a.text).append (ih (weight m.wideGlyphWidth a.text))
      rw [content_below, content_push, List.append_assoc a.lead]
      exact hbelow.trans (List.sublist_append_right a.lead _)

theorem rowsOf_sublist (m : Measure) (trailing : List Char) (as : List Atom) :
    (rowsOf m trailing as).content.Sublist (join as trailing) := by
  cases as with
  | nil => exact rowsFrom_sublist m trailing 0 []
  | cons a more =>
    rw [rowsOf, join]
    split
    · rw [content_push]
      exact (List.Sublist.refl _).append (rowsFrom_sublist m trailing _ more)
    · have hbelow := (List.Sublist.refl a.text).append
        (rowsFrom_sublist m trailing (weight m.wideGlyphWidth a.text) more)
      rw [content_push, List.append_assoc a.lead]
      exact hbelow.trans (List.sublist_append_right a.lead _)

/-! ## The rows of lines and of texts -/

theorem complies_of_mem_lineRows {m : Measure} {line : List Char} {r : Row}
    (h : r ∈ lineRows m line) : r.Complies m :=
  rowsOf_complies m _ _ r h

theorem division_of_mem_lineRows {m : Measure} {line : List Char} {r : Row}
    (h : r ∈ lineRows m line) : IsDivision r.atoms r.trailing :=
  rowsOf_division m _ _ (isDivision_atoms line) r h

/-- Filling leaves out characters, and neither adds nor moves any. -/
theorem lineRows_sublist (m : Measure) (line : List Char) :
    ((lineRows m line).map Row.text).flatten.Sublist line := by
  have h := rowsOf_sublist m (atoms line).2 (atoms line).1
  rwa [join_atoms] at h

theorem exists_line_of_mem_textRows {m : Measure} {text : List Char} {r : Row}
    (h : r ∈ textRows m text) : ∃ line ∈ lines text, r ∈ lineRows m line :=
  List.mem_flatMap.mp h

theorem break_not_mem_of_mem_textRows {m : Measure} {text : List Char} {r : Row}
    (h : r ∈ textRows m text) : '\n' ∉ r.text := by
  obtain ⟨line, hline, hr⟩ := exists_line_of_mem_textRows h
  have hmem : r.text ∈ (lineRows m line).map Row.text := List.mem_map_of_mem hr
  intro hbreak
  have hin := (lineRows_sublist m line).subset (List.mem_flatten_of_mem hmem hbreak)
  exact break_not_mem_of_mem_lines text line hline hin

theorem keep_textRows_ne_nil (m : Measure) (text : List Char) :
    m.keep 0 (textRows m text) ≠ [] := by
  obtain ⟨line, others, hlines⟩ := List.exists_cons_of_ne_nil (lines_ne_nil text)
  have hopen : m.reached 0 = false := by
    simp only [Measure.reached, Bool.and_eq_false_iff, decide_eq_false_iff_not]
    omega
  rw [textRows, hlines, List.flatMap_cons, lineRows, Rows.all, List.cons_append,
    m.keep_cons _ _ _ hopen]
  simp

/-- The lines of a filled text are the texts of its rows, up to the cap. -/
theorem lines_wrap {m : Measure} {text out : List Char} (h : wrap m text = .ok out) :
    lines out = (m.keep 0 (textRows m text)).map Row.text := by
  rw [wrap_rows h, m.keep_map]
  refine lines_unlines _ (by simpa using keep_textRows_ne_nil m text) ?_
  intro line hline
  obtain ⟨r, hr, rfl⟩ := List.mem_map.mp hline
  exact break_not_mem_of_mem_textRows ((m.keep_sublist 0 _).subset hr)

theorem weight_lt_of_wrap {m : Measure} {text out : List Char} (h : wrap m text = .ok out) :
    ∀ line ∈ lines out, weight m.wideGlyphWidth line < Size.bound := by
  obtain ⟨-, ls, hls, -⟩ := wrap_eq_ok.mp h
  rw [lines_wrap h, ← m.keep_map]
  have hkept := fillLines_rows m 0 (lines text) ls hls
  rw [textRows, ← hkept]
  exact fillLines_weight_lt m 0 (lines text) ls hls

/-! ## Filling a row again -/

theorem rowsFrom_of_fits (m : Measure) (trailing : List Char) (w : Nat) (as : List Atom)
    (h : w + weight m.wideGlyphWidth (join as trailing) ≤ m.budget) :
    rowsFrom m trailing w as = ⟨⟨as, trailing⟩, []⟩ := by
  induction as generalizing w with
  | nil =>
    rw [join] at h
    rw [rowsFrom, Measure.trail, if_pos h]
  | cons a more ih =>
    rw [join, weight_append, weight_append] at h
    rw [rowsFrom, if_pos (by omega), ih _ (by omega)]
    rfl

/-- A line that fits is one row. -/
theorem rowsOf_of_fits (m : Measure) (trailing : List Char) (as : List Atom)
    (h : weight m.wideGlyphWidth (join as trailing) ≤ m.budget) :
    rowsOf m trailing as = ⟨⟨as, trailing⟩, []⟩ := by
  cases as with
  | nil => exact rowsFrom_of_fits m trailing 0 [] (by omega)
  | cons a more =>
    rw [join, weight_append, weight_append] at h
    rw [rowsOf, if_pos (by omega), rowsFrom_of_fits m trailing _ more (by omega)]
    rfl

theorem rowsOf_single (m : Measure) (text : List Char) :
    rowsOf m [] [⟨[], text⟩] = ⟨⟨[⟨[], text⟩], []⟩, []⟩ := by
  have hnone : ∀ w, m.trail w [] = [] := fun w => by simp [Measure.trail]
  simp [rowsOf, rowsFrom, Rows.push, Row.push, hnone]

/-- A row that complies is not divided further. -/
theorem lineRows_text {m : Measure} {r : Row} (hdiv : IsDivision r.atoms r.trailing)
    (h : r.Complies m) : lineRows m r.text = [r] := by
  rw [lineRows, Row.text, atoms_join r.atoms r.trailing hdiv]
  rcases h with hfits | ⟨text, rfl⟩
  · rw [rowsOf_of_fits m r.trailing r.atoms hfits]
    rfl
  · rw [rowsOf_single]
    rfl

/-- Filling what was filled finds the rows that were kept. -/
theorem textRows_wrap {m : Measure} {text out : List Char} (h : wrap m text = .ok out) :
    textRows m out = m.keep 0 (textRows m text) := by
  have hsame : ∀ r ∈ m.keep 0 (textRows m text), lineRows m r.text = [r] := by
    intro r hr
    obtain ⟨line, _, hmem⟩ := exists_line_of_mem_textRows ((m.keep_sublist 0 _).subset hr)
    exact lineRows_text (division_of_mem_lineRows hmem) (complies_of_mem_lineRows hmem)
  rw [textRows, lines_wrap h, List.flatMap_map]
  exact (List.flatMap_congr hsame).trans (List.flatMap_singleton' _)

end TwinScreen.Text
