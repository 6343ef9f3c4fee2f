import Mathlib.Data.List.DropRight
import Mathlib.Data.List.Forall2
import TwinScreen.Proofs.Text.Compliance

/-!
# Greedy filling

Where every character of a filled text comes from, said on the text itself. A line of the text
becomes a block that holds the atoms of the line in order, each behind a separator. The separator is
the lead of the atom, or a line feed exactly when the last line before it, the lead and the atom
together are heavier than the budget; only the lead of the first atom and the trailing characters
are dropped instead (`wrap_greedy`). Weights are measured on the text that stands before the
separator, so the running number that the loop keeps is shown to be the weight of that line.
-/
namespace TwinScreen.Text

def lastLine (s : List Char) : List Char := s.rtakeWhile (· != '\n')

/-- The texts of the atoms, each behind its separator. -/
def interleave : List (List Char) → List Atom → List Char
  | sep :: seps, a :: more => sep ++ a.text ++ interleave seps more
  | _, _ => []

/-- The separator between the text before an atom and the atom. -/
def separator (m : Measure) (before : List Char) (a : Atom) : List Char :=
  if m.budget < weight m.wideGlyphWidth (lastLine before) + weight m.wideGlyphWidth a.lead +
      weight m.wideGlyphWidth a.text then ['\n']
  else a.lead

/-- The separator of the first atom, which stands at the start of a line. -/
def indentation (m : Measure) (a : Atom) : List Char :=
  if weight m.wideGlyphWidth a.lead + weight m.wideGlyphWidth a.text ≤ m.budget then a.lead else []

/-- What stays of the trailing characters behind a text. -/
def ending (m : Measure) (before trailing : List Char) : List Char :=
  if weight m.wideGlyphWidth (lastLine before) + weight m.wideGlyphWidth trailing ≤ m.budget
  then trailing else []

/-- The block of a line with this division: one separator for each atom, chosen by the text before
the atom. -/
structure IsGreedy (m : Measure) (as : List Atom) (trailing : List Char) (seps : List (List Char))
    (block : List Char) : Prop where
  length_eq : seps.length = as.length
  first : ∀ a, as[0]? = some a → seps[0]? = some (indentation m a)
  next : ∀ j a, as[j + 1]? = some a →
    seps[j + 1]? = some (separator m (interleave (seps.take (j + 1)) (as.take (j + 1))) a)
  block_eq : block = interleave seps as ++ ending m (interleave seps as) trailing

theorem lastLine_append (s t : List Char) (h : '\n' ∉ t) : lastLine (s ++ t) = lastLine s ++ t := by
  have hall : ∀ c ∈ t.reverse, (c != '\n') = true := by
    intro c hc
    rw [List.mem_reverse] at hc
    exact bne_iff_ne.mpr fun heq => h (heq ▸ hc)
  simp [lastLine, List.rtakeWhile, List.takeWhile_append_of_pos hall]

/-- What stands behind a line feed starts afresh. -/
theorem lastLine_break (s t : List Char) (h : '\n' ∉ t) : lastLine (s ++ '\n' :: t) = t := by
  have hstart : lastLine (s ++ ['\n']) = [] := by simp [lastLine, List.rtakeWhile]
  rw [List.append_cons, lastLine_append _ t h, hstart, List.nil_append]

theorem lastLine_of_not_mem (s : List Char) (h : '\n' ∉ s) : lastLine s = s := by
  have hempty : lastLine [] = [] := rfl
  simpa [hempty] using lastLine_append [] s h

/-- The separators of atoms that come behind a text, and the text with all of them. -/
structure GoesOn (m : Measure) (before : List Char) (as : List Atom) (trailing : List Char)
    (seps : List (List Char)) (rest : List Char) : Prop where
  length_eq : seps.length = as.length
  next : ∀ j a, as[j]? = some a →
    seps[j]? = some (separator m (before ++ interleave (seps.take j) (as.take j)) a)
  rest_eq : rest = interleave seps as ++ ending m (before ++ interleave seps as) trailing

/-- One more atom, with the separator that the text before it asks for. -/
theorem GoesOn.cons {m : Measure} {before : List Char} {a : Atom} {more : List Atom}
    {trailing rest : List Char} {seps : List (List Char)}
    (h : GoesOn m (before ++ separator m before a ++ a.text) more trailing seps rest) :
    GoesOn m before (a :: more) trailing (separator m before a :: seps)
      (separator m before a ++ a.text ++ rest) where
  length_eq := by simp [h.length_eq]
  next := by
    intro j b hb
    cases j with
    | zero =>
      simp only [List.getElem?_cons_zero, Option.some.injEq] at hb
      simp [← hb, interleave]
    | succ j => simpa [interleave] using h.next j b hb
  rest_eq := by simp [interleave, h.rest_eq]

theorem unlines_push (rows : Rows) (a : Atom) :
    unlines ((rows.push a).all.map Row.text) =
      a.lead ++ a.text ++ unlines (rows.all.map Row.text) := by
  cases hlater : rows.later <;> simp [Rows.all, hlater, unlines]

theorem unlines_below (rows : Rows) :
    unlines (rows.below.all.map Row.text) = '\n' :: unlines (rows.all.map Row.text) := by
  simp [Rows.all, unlines]

/-- The rows that follow a text continue it greedily: the weight that is carried from atom to atom
is the weight of the last line so far. -/
theorem rowsFrom_goesOn (m : Measure) (before trailing : List Char) (as : List Atom)
    (h : '\n' ∉ join as trailing) :
    ∃ seps, GoesOn m before as trailing seps (unlines ((rowsFrom m trailing
      (weight m.wideGlyphWidth (lastLine before)) as).all.map Row.text)) := by
  induction as generalizing before with
  | nil =>
    refine ⟨[], rfl, by simp, ?_⟩
    simp [rowsFrom, Rows.all, unlines, interleave, ending, Measure.trail]
  | cons a more ih =>
    simp only [join, List.mem_append, not_or] at h
    obtain ⟨⟨hlead, htext⟩, hmore⟩ := h
    obtain ⟨seps, hseps⟩ := ih (before ++ separator m before a ++ a.text) hmore
    refine ⟨separator m before a :: seps, ?_⟩
    have hcons := hseps.cons
    rw [rowsFrom]
    by_cases hfits : weight m.wideGlyphWidth (lastLine before) + weight m.wideGlyphWidth a.lead +
        weight m.wideGlyphWidth a.text ≤ m.budget
    · have hsep : separator m before a = a.lead := if_neg (Nat.not_lt.mpr hfits)
      rw [hsep, lastLine_append _ _ htext, lastLine_append _ _ hlead, weight_append,
        weight_append] at hcons
      rw [if_pos hfits, unlines_push, hsep]
      exact hcons
    · have hsep : separator m before a = ['\n'] := if_pos (Nat.lt_of_not_le hfits)
      rw [hsep, ← List.append_cons, lastLine_break _ _ htext] at hcons
      rw [if_neg hfits, unlines_below, unlines_push, hsep]
      exact hcons

/-- The rows of a line have the separators that the atoms ask for. -/
theorem rowsOf_isGreedy (m : Measure) (trailing : List Char) (as : List Atom)
    (h : '\n' ∉ join as trailing) :
    ∃ seps, IsGreedy m as trailing seps
      (unlines ((rowsOf m trailing as).all.map Row.text)) := by
  cases as with
  | nil =>
    refine ⟨[], rfl, by simp, by simp, ?_⟩
    simp [rowsOf, rowsFrom, Rows.all, unlines, interleave, ending, Measure.trail,
      lastLine_of_not_mem, weight]
  | cons a more =>
    simp only [join, List.mem_append, not_or] at h
    obtain ⟨⟨hlead, htext⟩, hmore⟩ := h
    have hbreak : '\n' ∉ indentation m a ++ a.text := by
      unfold indentation
      split <;> simp [hlead, htext]
    obtain ⟨seps, hseps⟩ := rowsFrom_goesOn m (indentation m a ++ a.text) trailing more hmore
    rw [lastLine_of_not_mem _ hbreak, weight_append] at hseps
    have hgreedy : IsGreedy m (a :: more) trailing (indentation m a :: seps)
        (indentation m a ++ a.text ++ unlines ((rowsFrom m trailing
          (weight m.wideGlyphWidth (indentation m a) + weight m.wideGlyphWidth a.text)
          more).all.map Row.text)) := by
      refine ⟨by simp [hseps.length_eq], by simp, ?_, ?_⟩
      · intro j b hb
        simpa [interleave] using hseps.next j b hb
      · simp [interleave, hseps.rest_eq]
    refine ⟨indentation m a :: seps, ?_⟩
    rw [rowsOf]
    by_cases hfits : weight m.wideGlyphWidth a.lead + weight m.wideGlyphWidth a.text ≤ m.budget
    · have hindent : indentation m a = a.lead := if_pos hfits
      rw [if_pos hfits, unlines_push]
      rwa [hindent] at hgreedy ⊢
    · have hindent : indentation m a = [] := if_neg hfits
      rw [if_neg hfits, unlines_push]
      rw [hindent, weight, Nat.zero_add] at hgreedy
      rwa [hindent]

/-- The rows of several lines, joined line by line. -/
theorem unlines_flatten (blocks : List (List (List Char))) (h : ∀ ls ∈ blocks, ls ≠ []) :
    unlines blocks.flatten = unlines (blocks.map unlines) := by
  induction blocks with
  | nil => rfl
  | cons ls others ih =>
    simp only [List.mem_cons, forall_eq_or_imp] at h
    cases others with
    | nil => simp [unlines]
    | cons next more =>
      have hne : (next :: more).flatten ≠ [] := by
        simp only [List.flatten_cons, ne_eq, List.append_eq_nil_iff, not_and]
        exact fun hnil => absurd hnil (h.2 next (by simp))
      rw [List.flatten_cons, unlines_append _ _ h.1 hne, ih h.2]
      exact (unlines_cons (by simp)).symm

theorem lineRows_ne_nil (m : Measure) (line : List Char) : lineRows m line ≠ [] := by
  simp [lineRows, Rows.all]

/-- Without a cap a filled text is its blocks, one for each line, joined by line feeds. A line is
divided in one way, and its block is the greedy one of this division. -/
theorem wrap_greedy (m : Measure) (text : List Char) (hcap : m.maxLines = 0) :
    (Weighable m text → ∃ out, wrap m text = .ok out) ∧
    ∀ out, wrap m text = .ok out → ∃ blocks, out = unlines blocks ∧
      List.Forall₂ (fun line block => (∃ as trailing, Divides as trailing line) ∧
        ∀ as trailing, Divides as trailing line → ∃ seps, IsGreedy m as trailing seps block)
        (lines text) blocks := by
  refine ⟨exists_wrap m text, ?_⟩
  intro out h
  refine ⟨(lines text).map fun line => unlines ((lineRows m line).map Row.text), ?_, ?_⟩
  · have hrows : (textRows m text).map Row.text =
        ((lines text).map fun line => (lineRows m line).map Row.text).flatten := by
      rw [textRows, List.map_flatMap, List.flatMap_def]
    rw [wrap_rows h, Measure.keep, if_pos hcap, hrows, unlines_flatten, List.map_map]
    · rfl
    · intro ls hls
      obtain ⟨line, _, rfl⟩ := List.mem_map.mp hls
      simpa using lineRows_ne_nil m line
  · rw [List.forall₂_map_right_iff, List.forall₂_same]
    intro line hline
    have hbreak := break_not_mem_of_mem_lines text line hline
    refine ⟨⟨_, _, isDivision_atoms line, join_atoms line⟩, ?_⟩
    intro as trailing hdiv
    rw [← hdiv.2] at hbreak
    rw [lineRows, (atoms_eq_iff line as trailing).mpr hdiv]
    exact rowsOf_isGreedy m trailing as hbreak

/-- Indentation that is kept and some that is dropped, a wide blank as a lead, and trailing blanks
that fit and some that do not. -/
theorem wrap_greedy_mixed :
    Weighable ⟨6, 150, 0⟩ " ab\u3000cd   \n     日本語xy     ".toList ∧
    wrap ⟨6, 150, 0⟩ " ab\u3000cd   \n     日本語xy     ".toList =
      .ok " ab\ncd   \n日本語\nxy".toList ∧
    ∃ blocks, " ab\ncd   \n日本語\nxy".toList = unlines blocks ∧
      List.Forall₂ (fun line block => (∃ as trailing, Divides as trailing line) ∧
        ∀ as trailing, Divides as trailing line →
          ∃ seps, IsGreedy ⟨6, 150, 0⟩ as trailing seps block)
        (lines " ab\u3000cd   \n     日本語xy     ".toList) blocks := by
  have h : wrap ⟨6, 150, 0⟩ " ab\u3000cd   \n     日本語xy     ".toList =
      .ok " ab\ncd   \n日本語\nxy".toList := by
    decide +kernel
  exact ⟨⟨by decide +kernel, by decide +kernel⟩, h, (wrap_greedy ⟨6, 150, 0⟩ _ rfl).2 _ h⟩

end TwinScreen.Text
