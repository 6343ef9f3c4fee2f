import TwinScreen.Proofs.Bounds
import TwinScreen.Proofs.Text.Division
import TwinScreen.Proofs.Text.Lines
import TwinScreen.Text.Paragraph

/-!
# Rows

The output lines of a text as rows: the atoms that stand on each output line with the blanks kept in
front of them, and the trailing characters kept. Rows are computed without faults and without a cap;
a text that can be filled gives the texts of its rows up to the cap (`wrap_rows`).
-/
namespace TwinScreen.Text

structure Row where
  atoms : List Atom
  trailing : List Char
  deriving DecidableEq, Repr

namespace Row

def text (r : Row) : List Char := join r.atoms r.trailing

def push (a : Atom) (r : Row) : Row := ⟨a :: r.atoms, r.trailing⟩

@[simp] theorem text_of_nil (trailing : List Char) : (⟨[], trailing⟩ : Row).text = trailing := rfl

@[simp] theorem text_push (a : Atom) (r : Row) : (r.push a).text = a.lead ++ a.text ++ r.text := rfl

end Row

namespace Measure

/-- Blank characters, if a line that weighs `w` fits with them. -/
def trail (m : Measure) (w : Nat) (trailing : List Char) : List Char :=
  if w + weight m.wideGlyphWidth trailing ≤ m.budget then trailing else []

/-- What may still be opened of the lines to come, after `opened` lines. -/
def keep {α : Type} (m : Measure) (opened : Nat) (coming : List α) : List α :=
  if m.maxLines = 0 then coming else coming.take (m.maxLines - opened)

theorem keep_of_reached {α : Type} (m : Measure) (opened : Nat) (coming : List α)
    (h : m.reached opened = true) : m.keep opened coming = [] := by
  simp only [reached, Bool.and_eq_true, decide_eq_true_eq] at h
  rw [keep, if_neg (by omega), Nat.sub_eq_zero_of_le h.2, List.take_zero]

theorem keep_cons {α : Type} (m : Measure) (opened : Nat) (x : α) (coming : List α)
    (h : m.reached opened = false) :
    m.keep opened (x :: coming) = x :: m.keep (opened + 1) coming := by
  simp only [reached, Bool.and_eq_false_iff, decide_eq_false_iff_not] at h
  unfold keep
  split
  · rfl
  · have hroom : m.maxLines - opened = m.maxLines - (opened + 1) + 1 := by omega
    rw [hroom, List.take_succ_cons]

/-- What is kept of the later lines depends on how many come before. -/
theorem keep_append {α : Type} (m : Measure) (opened : Nat) (xs ys : List α) :
    m.keep opened (xs ++ ys) = m.keep opened xs ++ m.keep (opened + xs.length) ys := by
  unfold keep
  split
  · rfl
  · rw [List.take_append, Nat.sub_sub]

theorem keep_map {α β : Type} (m : Measure) (opened : Nat) (f : α → β) (coming : List α) :
    m.keep opened (coming.map f) = (m.keep opened coming).map f := by
  unfold keep
  split
  · rfl
  · rw [List.map_take]

theorem keep_isPrefix {α : Type} (m : Measure) (opened : Nat) (coming : List α) :
    m.keep opened coming <+: coming := by
  unfold keep
  split
  · exact List.prefix_refl coming
  · exact List.take_prefix _ _

theorem keep_sublist {α : Type} (m : Measure) (opened : Nat) (coming : List α) :
    (m.keep opened coming).Sublist coming := (m.keep_isPrefix opened coming).sublist

/-- Where not everything is kept, nothing behind it is. -/
theorem keep_of_length_lt {α : Type} (m : Measure) (opened : Nat) (xs ys : List α)
    (h : (m.keep opened xs).length < xs.length) : m.keep (opened + xs.length) ys = [] := by
  unfold keep at h ⊢
  split at h
  · omega
  · rename_i hcap
    rw [List.length_take] at h
    rw [if_neg hcap, List.take_eq_nil_iff]
    exact .inl (by omega)

/-- What was kept once is kept again. -/
theorem keep_keep {α : Type} (m : Measure) (opened : Nat) (coming : List α) :
    m.keep opened (m.keep opened coming) = m.keep opened coming := by
  unfold keep
  split
  · rfl
  · rw [List.take_take, Nat.min_self]

end Measure

structure Rows where
  first : Row
  later : List Row
  deriving DecidableEq, Repr

namespace Rows

def all (rows : Rows) : List Row := rows.first :: rows.later

def push (a : Atom) (rows : Rows) : Rows := ⟨rows.first.push a, rows.later⟩

/-- The rows below one that ends here. -/
def below (rows : Rows) : Rows := ⟨⟨[], []⟩, rows.all⟩

@[simp] theorem first_push (a : Atom) (rows : Rows) : (rows.push a).first = rows.first.push a := rfl

@[simp] theorem later_push (a : Atom) (rows : Rows) : (rows.push a).later = rows.later := rfl

@[simp] theorem first_below (rows : Rows) : rows.below.first = ⟨[], []⟩ := rfl

@[simp] theorem later_below (rows : Rows) : rows.below.later = rows.first :: rows.later := rfl

end Rows

/-- The rest of a row that weighs `w`, and the rows below it. -/
def rowsFrom (m : Measure) (trailing : List Char) (w : Nat) : List Atom → Rows
  | [] => ⟨⟨[], m.trail w trailing⟩, []⟩
  | a :: more =>
      if w + weight m.wideGlyphWidth a.lead + weight m.wideGlyphWidth a.text ≤ m.budget then
        (rowsFrom m trailing
          (w + weight m.wideGlyphWidth a.lead + weight m.wideGlyphWidth a.text) more).push a
      else
        ((rowsFrom m trailing (weight m.wideGlyphWidth a.text) more).push ⟨[], a.text⟩).below

def rowsOf (m : Measure) (trailing : List Char) : List Atom → Rows
  | [] => rowsFrom m trailing 0 []
  | a :: more =>
      if weight m.wideGlyphWidth a.lead + weight m.wideGlyphWidth a.text ≤ m.budget then
        (rowsFrom m trailing
          (weight m.wideGlyphWidth a.lead + weight m.wideGlyphWidth a.text) more).push a
      else
        (rowsFrom m trailing (weight m.wideGlyphWidth a.text) more).push ⟨[], a.text⟩

def lineRows (m : Measure) (line : List Char) : List Row :=
  (rowsOf m (atoms line).2 (atoms line).1).all

def textRows (m : Measure) (text : List Char) : List Row := (lines text).flatMap (lineRows m)

/-! ## What filling comes to -/

theorem fillTrailing_eq (m : Measure) (opened w : Nat) (trailing : List Char) :
    fillTrailing m opened w trailing =
      if w + weight m.wideGlyphWidth trailing < Size.bound then
        .ok { first := m.trail w trailing, later := [], opened, cut := false }
      else .error .overflow := by
  simp only [fillTrailing, lineWeight, Size.add, Size.fit_bind]
  by_cases hsum : w + weight m.wideGlyphWidth trailing < Size.bound
  · have ht : weight m.wideGlyphWidth trailing < Size.bound := by omega
    rw [if_pos ht, if_pos hsum, if_pos hsum]
    rfl
  · rw [if_neg hsum, if_neg hsum, ite_self]

/-- An atom joins the line if the line still fits with it. Otherwise it starts the next line, if one
may still be opened and can be counted. The weights of lead and text are computed one by one, but
all are sizes when their sum is. -/
theorem fillAtoms_cons_eq_ok {m : Measure} {opened w : Nat} {trailing : List Char} {a : Atom}
    {more : List Atom} {b : Block} :
    fillAtoms m opened w trailing (a :: more) = .ok b ↔
      w + weight m.wideGlyphWidth a.lead + weight m.wideGlyphWidth a.text < Size.bound ∧
        if w + weight m.wideGlyphWidth a.lead + weight m.wideGlyphWidth a.text ≤ m.budget then
          ∃ rest, fillAtoms m opened (w + weight m.wideGlyphWidth a.lead +
            weight m.wideGlyphWidth a.text) trailing more = .ok rest ∧
            b = rest.push (a.lead ++ a.text)
        else if m.reached opened then
          b = { first := [], later := [], opened, cut := true }
        else
          opened + 1 < Size.bound ∧
            ∃ rest, fillAtoms m (opened + 1) (weight m.wideGlyphWidth a.text) trailing more =
              .ok rest ∧ b = (rest.push a.text).breakBefore := by
  rw [fillAtoms]
  simp only [lineWeight, Size.add, Size.fit_bind, except_bind_pure]
  by_cases hsum : w + weight m.wideGlyphWidth a.lead + weight m.wideGlyphWidth a.text < Size.bound
  · have hl : weight m.wideGlyphWidth a.lead < Size.bound := by omega
    have ht : weight m.wideGlyphWidth a.text < Size.bound := by omega
    have hwl : w + weight m.wideGlyphWidth a.lead < Size.bound := by omega
    rw [if_pos hl, if_pos ht, if_pos hwl, if_pos hsum, and_iff_right hsum]
    split
    · exact except_map_eq_ok
    · split
      · exact except_ok_eq_ok
      · split
        · rename_i hcount
          rw [and_iff_right hcount]
          exact except_map_eq_ok
        · rename_i hcount
          simp [hcount]
  · rw [if_neg hsum, ite_self, ite_self, ite_self]
    simp [hsum]

theorem fillLine_of_nil (m : Measure) (opened : Nat) (line trailing : List Char)
    (h : atoms line = ([], trailing)) :
    fillLine m opened line = fillTrailing m opened 0 trailing := by
  simp only [fillLine, h]

/-- The first atom stands on the first line in any case, and its lead does if it fits there. -/
theorem fillLine_cons_eq_ok {m : Measure} {opened : Nat} {line trailing : List Char} {a : Atom}
    {more : List Atom} {b : Block} (h : atoms line = (a :: more, trailing)) :
    fillLine m opened line = .ok b ↔
      weight m.wideGlyphWidth a.lead + weight m.wideGlyphWidth a.text < Size.bound ∧
        if weight m.wideGlyphWidth a.lead + weight m.wideGlyphWidth a.text ≤ m.budget then
          ∃ rest, fillAtoms m opened (weight m.wideGlyphWidth a.lead +
            weight m.wideGlyphWidth a.text) trailing more = .ok rest ∧
            b = rest.push (a.lead ++ a.text)
        else
          ∃ rest, fillAtoms m opened (weight m.wideGlyphWidth a.text) trailing more = .ok rest ∧
            b = rest.push a.text := by
  simp only [fillLine, h, lineWeight, Size.add, Size.fit_bind, except_bind_pure]
  by_cases hsum : weight m.wideGlyphWidth a.lead + weight m.wideGlyphWidth a.text < Size.bound
  · have hl : weight m.wideGlyphWidth a.lead < Size.bound := by omega
    have ht : weight m.wideGlyphWidth a.text < Size.bound := by omega
    rw [if_pos hl, if_pos ht, if_pos hsum, and_iff_right hsum]
    split <;> exact except_map_eq_ok
  · rw [if_neg hsum, ite_self, ite_self]
    simp [hsum]

/-- Lines are filled one after the other, up to the one in which the cap strikes. -/
theorem fillLines_cons_eq_ok {m : Measure} {opened : Nat} {line : List Char}
    {others out : List (List Char)} :
    fillLines m opened (line :: others) = .ok out ↔
      if m.reached opened then out = []
      else opened + 1 < Size.bound ∧ ∃ b, fillLine m (opened + 1) line = .ok b ∧
        if b.cut then out = b.lines
        else ∃ rest, fillLines m b.opened others = .ok rest ∧ out = b.lines ++ rest := by
  rw [fillLines]
  split
  · exact except_ok_eq_ok
  · rw [Size.add, Size.fit_bind]
    split
    · rename_i hcount
      rw [and_iff_right hcount, except_bind_eq_ok]
      refine exists_congr fun b => and_congr_right fun _ => ?_
      split
      · exact except_ok_eq_ok
      · rw [except_bind_pure]
        exact except_map_eq_ok
    · rename_i hcount
      simp [hcount]

/-- A filled text is put together from the filled lines. -/
theorem wrap_eq_ok {m : Measure} {text out : List Char} :
    wrap m text = .ok out ↔
      utf8Length text + utf8Length text / 2 < Size.bound ∧
        ∃ ls, fillLines m 0 (lines text) = .ok ls ∧ out = unlines ls := by
  rw [wrap, wrappedCapacity, Size.add, Size.fit_bind]
  split
  · rename_i hroom
    rw [and_iff_right hroom, except_bind_pure]
    exact except_map_eq_ok
  · rename_i hroom
    simp [hroom]

/-! ## Filled lines are rows -/

/-- A block shows a row and the rows below it, as far as lines could be opened for them. -/
structure Block.Shows (b : Block) (m : Measure) (opened : Nat) (rows : Rows) : Prop where
  first : b.first = rows.first.text
  later : b.later = m.keep opened (rows.later.map Row.text)
  opened : b.opened = opened + b.later.length
  cut : b.cut = true ↔ b.later.length < rows.later.length

theorem Block.Shows.push {b : Block} {m : Measure} {opened : Nat} {rows : Rows}
    (h : b.Shows m opened rows) (a : Atom) :
    (b.push (a.lead ++ a.text)).Shows m opened (rows.push a) where
  first := by simp [Block.push, h.first]
  later := h.later
  opened := h.opened
  cut := h.cut

theorem Block.Shows.breakBefore {b : Block} {m : Measure} {opened : Nat} {rows : Rows}
    (h : b.Shows m (opened + 1) rows) (hopen : m.reached opened = false) :
    b.breakBefore.Shows m opened rows.below where
  first := rfl
  later := by
    rw [Rows.later_below, List.map_cons, m.keep_cons _ _ _ hopen, ← h.first, ← h.later]
    rfl
  opened := by
    have hcount := h.opened
    simp only [Block.breakBefore, Block.lines, List.length_cons]
    omega
  cut := by simpa [Block.breakBefore, Block.lines] using h.cut

theorem fillTrailing_shows {m : Measure} {opened w : Nat} {trailing : List Char} {b : Block}
    (h : fillTrailing m opened w trailing = .ok b) :
    b.Shows m opened (rowsFrom m trailing w []) := by
  rw [fillTrailing_eq] at h
  split at h
  · cases h
    exact ⟨rfl, by simp [Measure.keep, rowsFrom], rfl, by simp [rowsFrom]⟩
  · cases h

/-- Placing atoms makes their rows, as far as lines can be opened. -/
theorem fillAtoms_shows {m : Measure} {opened w : Nat} {trailing : List Char} {as : List Atom}
    {b : Block} (h : fillAtoms m opened w trailing as = .ok b) :
    b.Shows m opened (rowsFrom m trailing w as) := by
  induction as generalizing opened w b with
  | nil => exact fillTrailing_shows h
  | cons a more ih =>
    obtain ⟨-, h⟩ := fillAtoms_cons_eq_ok.mp h
    rw [rowsFrom]
    split at h
    · rename_i hfits
      obtain ⟨rest, hrest, rfl⟩ := h
      rw [if_pos hfits]
      exact (ih hrest).push a
    · rename_i hfull
      rw [if_neg hfull]
      split at h
      · rename_i hreached
        subst h
        exact ⟨rfl, (m.keep_of_reached _ _ hreached).symm, rfl, by simp⟩
      · rename_i hfree
        obtain ⟨-, rest, hrest, rfl⟩ := h
        exact ((ih hrest).push ⟨[], a.text⟩).breakBefore (by simpa using hfree)

theorem fillLine_shows {m : Measure} {opened : Nat} {line : List Char} {b : Block}
    (h : fillLine m opened line = .ok b) :
    b.Shows m opened (rowsOf m (atoms line).2 (atoms line).1) := by
  rcases hdiv : atoms line with ⟨_ | ⟨a, more⟩, trailing⟩
  · rw [fillLine_of_nil m opened line trailing hdiv] at h
    exact fillTrailing_shows h
  · obtain ⟨-, h⟩ := (fillLine_cons_eq_ok hdiv).mp h
    rw [rowsOf]
    split at h
    · rename_i hfits
      obtain ⟨rest, hrest, rfl⟩ := h
      rw [if_pos hfits]
      exact (fillAtoms_shows hrest).push a
    · rename_i hheavy
      obtain ⟨rest, hrest, rfl⟩ := h
      rw [if_neg hheavy]
      exact (fillAtoms_shows hrest).push ⟨[], a.text⟩

/-- The lines of a block, its first line included, which is already counted. -/
theorem fillLine_rows {m : Measure} {opened : Nat} {line : List Char} {b : Block}
    (h : fillLine m (opened + 1) line = .ok b) (hopen : m.reached opened = false) :
    b.lines = m.keep opened ((lineRows m line).map Row.text) ∧
    (b.cut = true → b.lines.length < (lineRows m line).length) ∧
    (b.cut = false → b.opened = opened + (lineRows m line).length) := by
  have hshow := fillLine_shows h
  have hlength : b.lines.length = b.later.length + 1 := rfl
  have hrows : (lineRows m line).length =
      (rowsOf m (atoms line).2 (atoms line).1).later.length + 1 := rfl
  refine ⟨(hshow.breakBefore hopen).later, ?_, ?_⟩
  · intro hcut
    have hshort := hshow.cut.mp hcut
    omega
  · intro hfull
    have hcount := hshow.opened
    have hall : ¬ b.later.length < (rowsOf m (atoms line).2 (atoms line).1).later.length := by
      rw [← hshow.cut, hfull]
      simp
    have hle : b.later.length ≤ (rowsOf m (atoms line).2 (atoms line).1).later.length := by
      rw [hshow.later, m.keep_map, List.length_map]
      exact (m.keep_sublist _ _).length_le
    omega

/-- Filling lines makes the rows of all of them, under one cap. -/
theorem fillLines_rows (m : Measure) (opened : Nat) (ls out : List (List Char))
    (h : fillLines m opened ls = .ok out) :
    out = m.keep opened ((ls.flatMap (lineRows m)).map Row.text) := by
  induction ls generalizing opened out with
  | nil =>
    cases h
    simp [Measure.keep]
  | cons line others ih =>
    rw [fillLines_cons_eq_ok] at h
    split at h
    · rename_i hreached
      subst h
      exact (m.keep_of_reached _ _ hreached).symm
    · rename_i hfree
      obtain ⟨-, b, hblock, h⟩ := h
      obtain ⟨hlines, hcut, hfull⟩ := fillLine_rows hblock (by simpa using hfree)
      rw [List.flatMap_cons, List.map_append, m.keep_append, ← hlines, List.length_map]
      split at h
      · -- The cap was reached inside the block, so nothing of the other lines is kept.
        rename_i hc
        have hshort := hcut hc
        rw [hlines, ← List.length_map Row.text] at hshort
        have hnone := m.keep_of_length_lt opened _
          ((others.flatMap (lineRows m)).map Row.text) hshort
        rw [List.length_map] at hnone
        rw [h, hnone, List.append_nil]
      · rename_i hc
        obtain ⟨rest, hrest, rfl⟩ := h
        rw [ih b.opened rest hrest, hfull (by simpa using hc)]

/-- A text that can be filled gives the texts of its rows, up to the cap. -/
theorem wrap_rows {m : Measure} {text out : List Char} (h : wrap m text = .ok out) :
    out = unlines (m.keep 0 ((textRows m text).map Row.text)) := by
  obtain ⟨-, ls, hls, rfl⟩ := wrap_eq_ok.mp h
  rw [fillLines_rows m 0 (lines text) ls hls]
  rfl

end TwinScreen.Text
