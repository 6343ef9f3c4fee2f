import TwinScreen.Proofs.Text.Compliance

/-!
# Room for filled text

A filled text is at most half as long again as the text, in bytes. A break takes the place of blank
characters, or it stands between two atoms that touch. A break between touching atoms adds a byte,
but one of the two atoms is a glyph of at least three bytes, and only every other atom can be a run
(`rowsFrom_length_le`).
-/
namespace TwinScreen.Text

/-! ## Bytes of rows -/

def Rows.brokenLength (rows : Rows) : Nat := Text.brokenLength (rows.all.map Row.text)

theorem brokenLength_push (rows : Rows) (a : Atom) :
    (rows.push a).brokenLength = utf8Length a.lead + utf8Length a.text + rows.brokenLength := by
  simp only [Rows.brokenLength, Rows.all, List.map_cons, Text.brokenLength, Rows.first_push,
    Row.text_push, Rows.later_push, utf8Length_append]
  omega

theorem brokenLength_start (rows : Rows) (text : List Char) :
    (rows.push ⟨[], text⟩).brokenLength = utf8Length text + rows.brokenLength := by
  simpa [utf8Length] using brokenLength_push rows ⟨[], text⟩

theorem brokenLength_below (rows : Rows) : rows.below.brokenLength = rows.brokenLength + 1 := by
  simp only [Rows.brokenLength, Rows.all, List.map_cons, Text.brokenLength, Rows.first_below,
    Row.text_of_nil, Rows.later_below, utf8Length]
  omega

theorem utf8Length_trail_le (m : Measure) (w : Nat) (trailing : List Char) :
    utf8Length (m.trail w trailing) ≤ utf8Length trailing := by
  rcases trail_eq_or m w trailing with ⟨hkept, _⟩ | hdropped
  · rw [hkept]
  · rw [hdropped]
    exact Nat.zero_le _

/-- Behind an atom, the rows that follow are half as long again as what is left of the line, up to
one byte, which is not needed behind a run. The induction is on the atoms that are left. -/
theorem rowsFrom_length_le (m : Measure) (trailing : List Char) (w : Nat) (before : Atom)
    (as : List Atom) (h : IsDivision (before :: as) trailing) :
    2 * (rowsFrom m trailing w as).brokenLength ≤ 3 * utf8Length (join as trailing) + 3 ∧
    (IsRun before.text →
      2 * (rowsFrom m trailing w as).brokenLength ≤ 3 * utf8Length (join as trailing) + 2) := by
  induction as generalizing w before with
  | nil =>
    have htrail := utf8Length_trail_le m w trailing
    simp only [rowsFrom, Rows.brokenLength, Rows.all, List.map_cons, List.map_nil, brokenLength,
      Row.text_of_nil, join]
    omega
  | cons a more ih =>
    have htext := utf8Length_of_atom (h.text_atom a (by simp))
    rw [rowsFrom, join, utf8Length_append, utf8Length_append]
    split
    · have hrest := (ih (w + weight m.wideGlyphWidth a.lead + weight m.wideGlyphWidth a.text) a
        h.tail).1
      rw [brokenLength_push]
      omega
    · obtain ⟨hrest, hrestRun⟩ := ih (weight m.wideGlyphWidth a.text) a h.tail
      rw [brokenLength_below, brokenLength_start]
      rcases h.text_atom a (by simp) with hglyph | hrun
      · have hthree := utf8Length_of_glyph hglyph
        omega
      · have hrunLength := hrestRun hrun
        refine ⟨by omega, fun hbefore => ?_⟩
        -- A run behind a run has a lead, and the break takes its place.
        have hlead := utf8Length_pos ((List.isChain_cons_cons.mp h.apart).1 hbefore hrun)
        omega

theorem rowsOf_length_le (m : Measure) (trailing : List Char) (as : List Atom)
    (h : IsDivision as trailing) :
    2 * (rowsOf m trailing as).brokenLength ≤ 3 * utf8Length (join as trailing) + 2 := by
  cases as with
  | nil =>
    have htrail := utf8Length_trail_le m 0 trailing
    simp only [rowsOf, rowsFrom, Rows.brokenLength, Rows.all, List.map_cons, List.map_nil,
      brokenLength, Row.text_of_nil, join]
    omega
  | cons a more =>
    have htext := utf8Length_of_atom (h.text_atom a (by simp))
    rw [rowsOf, join, utf8Length_append, utf8Length_append]
    split
    · have hrest := (rowsFrom_length_le m trailing
        (weight m.wideGlyphWidth a.lead + weight m.wideGlyphWidth a.text) a more h).1
      rw [brokenLength_push]
      omega
    · have hrest := (rowsFrom_length_le m trailing (weight m.wideGlyphWidth a.text) a more h).1
      rw [brokenLength_start]
      omega

theorem lineRows_length_le (m : Measure) (line : List Char) :
    2 * brokenLength ((lineRows m line).map Row.text) ≤ 3 * utf8Length line + 2 := by
  have h := rowsOf_length_le m _ _ (isDivision_atoms line)
  rwa [join_atoms] at h

/-- Each line of the text leaves a byte to spare, the line feed behind it counted. -/
theorem flatMap_length_le (m : Measure) (ls : List (List Char)) :
    2 * brokenLength ((ls.flatMap (lineRows m)).map Row.text) + ls.length ≤
      3 * brokenLength ls := by
  induction ls with
  | nil => exact Nat.le_refl _
  | cons line others ih =>
    have hline := lineRows_length_le m line
    rw [List.flatMap_cons, List.map_append, brokenLength_append, brokenLength, List.length_cons]
    omega

/-- A filled text has room in the buffer that was reserved for it, whether the cap struck or not. -/
theorem wrap_fits_capacity (m : Measure) (text : List Char) :
    (Weighable m text → ∃ out, wrap m text = .ok out) ∧
    ∀ out, wrap m text = .ok out →
      wrappedCapacity (utf8Length text) = .ok (utf8Length text + utf8Length text / 2) ∧
      utf8Length out ≤ utf8Length text + utf8Length text / 2 := by
  refine ⟨exists_wrap m text, ?_⟩
  intro out h
  constructor
  · exact Size.add_of_lt (wrap_eq_ok.mp h).1
  · have hkept := brokenLength_le_of_sublist
      ((m.keep_sublist 0 (textRows m text)).map Row.text)
    rw [← lines_wrap h, ← utf8Length_lines] at hkept
    have hrows := flatMap_length_le m (lines text)
    have hsome := List.length_pos_of_ne_nil (lines_ne_nil text)
    rw [← utf8Length_lines, ← textRows] at hrows
    omega

/-- Runs of one byte and glyphs of three, each on a line of its own, take all the room. -/
theorem wrap_fits_capacity_exactly :
    Weighable ⟨1, 150, 0⟩ "a日b日c".toList ∧
    wrap ⟨1, 150, 0⟩ "a日b日c".toList = .ok "a\n日\nb\n日\nc".toList ∧
    wrappedCapacity 9 = .ok 13 ∧ utf8Length "a\n日\nb\n日\nc".toList ≤ 13 ∧
    utf8Length "a\n日\nb\n日\nc".toList = 13 := by
  have h : wrap ⟨1, 150, 0⟩ "a日b日c".toList = .ok "a\n日\nb\n日\nc".toList := by decide +kernel
  obtain ⟨hroom, hle⟩ := (wrap_fits_capacity ⟨1, 150, 0⟩ "a日b日c".toList).2 _ h
  exact ⟨⟨by decide +kernel, by decide +kernel⟩, h, hroom, hle, by decide +kernel⟩

end TwinScreen.Text
