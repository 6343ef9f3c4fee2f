import TwinScreen.Proofs.Text.Capped
import TwinScreen.Proofs.Text.Filled
import TwinScreen.Proofs.Text.Greedy
import TwinScreen.Proofs.Text.Room

/-!
# The fewest lines

Filling puts the atoms of a line on as few output lines as they can stand on. What stands on the
current row matters little for the number of breaks to come: a lighter row never leads to more of
them, and no row to more than one more than another (`breaks_compare`). So filling needs at most one
break for each group of any other grouping (`breaks_le_of_fits`), and its own rows are a grouping
that no other one beats (`wrap_fewest`).
-/
namespace TwinScreen.Text

/-! ## Groupings -/

/-- What stands on a line of its own when these atoms do: the blanks in front are left out. -/
def together : List Atom → List Char
  | [] => []
  | a :: more => a.text ++ join more []

/-- What stands on the first line when these atoms do, its indentation included. -/
def indented (m : Measure) : List Atom → List Char
  | [] => []
  | a :: more => indentation m a ++ a.text ++ join more []

/-- Atoms divided into groups, one for each line: a group is a single atom or weighs no more than
the line width, and so does the first group with its indentation. -/
structure IsGrouping (m : Measure) (as : List Atom) (groups : List (List Atom)) : Prop where
  flatten_eq : groups.flatten = as
  ne_nil : ∀ g ∈ groups, g ≠ []
  first : ∀ g ∈ groups.head?,
    g.length = 1 ∨ weight m.wideGlyphWidth (indented m g) ≤ m.lineWidth * 100
  later : ∀ g ∈ groups.tail,
    g.length = 1 ∨ weight m.wideGlyphWidth (together g) ≤ m.lineWidth * 100

/-! ## Breaks -/

section Breaks

variable (m : Measure) (trailing : List Char)

/-- Breaks that are made when atoms are placed behind a row that weighs `w`. -/
def breaks (w : Nat) (as : List Atom) : Nat := (rowsFrom m trailing w as).later.length

theorem breaks_nil (w : Nat) : breaks m trailing w [] = 0 := rfl

theorem breaks_cons (w : Nat) (a : Atom) (more : List Atom) :
    breaks m trailing w (a :: more) =
      if w + weight m.wideGlyphWidth a.lead + weight m.wideGlyphWidth a.text ≤ m.budget then
        breaks m trailing
          (w + weight m.wideGlyphWidth a.lead + weight m.wideGlyphWidth a.text) more
      else breaks m trailing (weight m.wideGlyphWidth a.text) more + 1 := by
  unfold breaks
  rw [rowsFrom]
  split <;> rfl

/-- Both comparisons of two rows go on from each other: where only the heavier one breaks, it is
lighter afterwards. -/
theorem breaks_compare (as : List Atom) :
    (∀ w w', w ≤ w' → breaks m trailing w as ≤ breaks m trailing w' as) ∧
    ∀ w w', breaks m trailing w as ≤ breaks m trailing w' as + 1 := by
  induction as with
  | nil => simp [breaks_nil]
  | cons a more ih =>
    obtain ⟨hmono, hsucc⟩ := ih
    constructor
    · intro w w' hw
      rw [breaks_cons, breaks_cons]
      split
      · split
        · exact hmono _ _ (by omega)
        · exact hsucc _ _
      · rw [if_neg (by omega)]
    · intro w w'
      rw [breaks_cons, breaks_cons]
      split
      · split
        · exact hsucc _ _
        · exact (hsucc _ _).trans (Nat.le_succ _)
      · split
        · exact Nat.succ_le_succ (hmono _ _ (by omega))
        · exact Nat.le_succ _

/-- Any row leads to at most one break more than another. -/
theorem breaks_le_succ (w w' : Nat) (as : List Atom) :
    breaks m trailing w as ≤ breaks m trailing w' as + 1 :=
  (breaks_compare m trailing as).2 w w'

/-- Atoms that all fit on a row are placed without a break. -/
theorem breaks_append_of_fits (w : Nat) (as rest : List Atom)
    (h : w + weight m.wideGlyphWidth (join as []) ≤ m.budget) :
    breaks m trailing w (as ++ rest) =
      breaks m trailing (w + weight m.wideGlyphWidth (join as [])) rest := by
  induction as generalizing w with
  | nil => simp [join, weight]
  | cons a more ih =>
    rw [join, weight_append, weight_append] at h ⊢
    rw [List.cons_append, breaks_cons, if_pos (by omega), ih _ (by omega)]
    simp only [Nat.add_assoc]

/-- An atom costs at most the break in front of it. -/
theorem breaks_cons_le (w : Nat) (a : Atom) (more : List Atom) :
    breaks m trailing w (a :: more) ≤
      breaks m trailing (weight m.wideGlyphWidth a.text) more + 1 := by
  rw [breaks_cons]
  split
  · exact breaks_le_succ m trailing _ _ more
  · exact Nat.le_refl _

/-- Behind a row with its first atom, the other atoms of a group and further groups need at most
one break for each of the further groups. -/
theorem breaks_le_of_fits (groups : List (List Atom)) (hne : ∀ g ∈ groups, g ≠ [])
    (hfits : ∀ g ∈ groups, g.length = 1 ∨ weight m.wideGlyphWidth (together g) ≤ m.budget)
    (w : Nat) (more : List Atom)
    (hmore : more = [] ∨ w + weight m.wideGlyphWidth (join more []) ≤ m.budget) :
    breaks m trailing w (more ++ groups.flatten) ≤ groups.length := by
  induction groups generalizing w more with
  | nil =>
    rcases hmore with rfl | hfirst
    · simp [breaks_nil]
    · rw [breaks_append_of_fits m trailing w more _ hfirst]
      simp [breaks_nil]
  | cons g others ih =>
    simp only [List.mem_cons, forall_eq_or_imp] at hne hfits
    obtain ⟨a, rest, rfl⟩ := List.exists_cons_of_ne_nil hne.1
    have hnext : breaks m trailing (weight m.wideGlyphWidth a.text) (rest ++ others.flatten) ≤
        others.length := by
      refine ih hne.2 hfits.2 _ rest ?_
      rcases hfits.1 with hone | hgroup
      · exact .inl (by simpa using hone)
      · exact .inr (by simpa [together, weight_append] using hgroup)
    -- Wherever the first atom of the next group comes to stand, it costs one break at most.
    have hrow : ∀ w', breaks m trailing w' ((a :: rest) ++ others.flatten) ≤
        others.length + 1 := fun w' =>
      (breaks_cons_le m trailing w' a _).trans (Nat.succ_le_succ hnext)
    rw [List.flatten_cons, List.length_cons]
    rcases hmore with rfl | hfirst
    · exact hrow w
    · rw [breaks_append_of_fits m trailing w more _ hfirst]
      exact hrow _

/-- The rows themselves are groups that fit, with one break in front of each but the first. -/
theorem exists_groups_breaks (w : Nat) (as : List Atom) :
    ∃ (more : List Atom) (groups : List (List Atom)), more ++ groups.flatten = as ∧
      groups.length = breaks m trailing w as ∧
      (more = [] ∨ w + weight m.wideGlyphWidth (join more []) ≤ m.budget) ∧
      (∀ g ∈ groups, g ≠ []) ∧
      ∀ g ∈ groups, g.length = 1 ∨ weight m.wideGlyphWidth (together g) ≤ m.budget := by
  induction as generalizing w with
  | nil => exact ⟨[], [], by simp [breaks_nil]⟩
  | cons a others ih =>
    rw [breaks_cons]
    split
    · rename_i hfits
      obtain ⟨more, groups, hflat, hlength, hmore, hne, hgroups⟩ :=
        ih (w + weight m.wideGlyphWidth a.lead + weight m.wideGlyphWidth a.text)
      refine ⟨a :: more, groups, by simp [hflat], hlength, .inr ?_, hne, hgroups⟩
      rw [join, weight_append, weight_append]
      rcases hmore with rfl | hmore
      · simpa [join, weight, Nat.add_assoc] using hfits
      · omega
    · obtain ⟨more, groups, hflat, hlength, hmore, hne, hgroups⟩ :=
        ih (weight m.wideGlyphWidth a.text)
      refine ⟨[], (a :: more) :: groups, by simp [hflat], by simp [hlength], .inl rfl, ?_, ?_⟩
      · simpa using hne
      · simp only [List.mem_cons, forall_eq_or_imp]
        refine ⟨?_, hgroups⟩
        rcases hmore with rfl | hmore
        · exact .inl rfl
        · exact .inr (by simpa [together, weight_append] using hmore)

end Breaks

/-! ## The rows of a line -/

/-- The first row starts with the first atom behind the indentation that is kept. -/
theorem length_rowsOf (m : Measure) (trailing : List Char) (a : Atom) (more : List Atom) :
    (rowsOf m trailing (a :: more)).all.length =
      breaks m trailing (weight m.wideGlyphWidth (indentation m a) +
        weight m.wideGlyphWidth a.text) more + 1 := by
  unfold breaks indentation
  rw [rowsOf]
  split
  · rfl
  · rw [weight, Nat.zero_add]
    rfl

/-- The rows of atoms are one of their groupings. -/
theorem exists_grouping_rowsOf (m : Measure) (trailing : List Char) (a : Atom)
    (more : List Atom) :
    ∃ groups, IsGrouping m (a :: more) groups ∧
      groups.length = (rowsOf m trailing (a :: more)).all.length := by
  obtain ⟨rest, groups, hflat, hlength, hrest, hnonempty, hfits⟩ := exists_groups_breaks m trailing
    (weight m.wideGlyphWidth (indentation m a) + weight m.wideGlyphWidth a.text) more
  have hbudget := budget_le m
  refine ⟨(a :: rest) :: groups, ⟨by simp [hflat], by simpa using hnonempty, ?_, ?_⟩, ?_⟩
  · intro g hg
    obtain rfl : a :: rest = g := by simpa using hg
    rcases hrest with rfl | hrest
    · exact .inl rfl
    · right
      rw [indented, weight_append, weight_append]
      omega
  · intro g hg
    exact (hfits g hg).imp_right fun hweight => hweight.trans hbudget
  · rw [length_rowsOf, List.length_cons, hlength]

/-- A grouping has a first group, which starts with the first atom. -/
theorem IsGrouping.exists_first {m : Measure} {a : Atom} {more : List Atom}
    {groups : List (List Atom)} (h : IsGrouping m (a :: more) groups) :
    ∃ rest others, groups = (a :: rest) :: others ∧ rest ++ others.flatten = more := by
  obtain ⟨g, others, rfl⟩ : ∃ g others, groups = g :: others := by
    refine List.exists_cons_of_ne_nil ?_
    rintro rfl
    exact absurd h.flatten_eq (by simp)
  obtain ⟨a', rest, rfl⟩ := List.exists_cons_of_ne_nil (h.ne_nil g List.mem_cons_self)
  obtain ⟨rfl, hmore⟩ : a' = a ∧ rest ++ others.flatten = more := by
    simpa using h.flatten_eq
  exact ⟨rest, others, rfl, hmore⟩

/-- Where the budget is the line width itself, no grouping beats the rows. -/
theorem IsGrouping.length_rowsOf_le {m : Measure} (hexact : m.budget = m.lineWidth * 100)
    {a : Atom} {more : List Atom} {groups : List (List Atom)}
    (h : IsGrouping m (a :: more) groups) (trailing : List Char) :
    (rowsOf m trailing (a :: more)).all.length ≤ groups.length := by
  obtain ⟨rest, others, rfl, rfl⟩ := h.exists_first
  rw [length_rowsOf, List.length_cons]
  refine Nat.succ_le_succ ?_
  apply breaks_le_of_fits m trailing others (List.forall_mem_cons.mp h.ne_nil).2
  · rw [hexact]
    exact h.later
  · rcases h.first _ rfl with hone | hfirst
    · exact .inl (by simpa using hone)
    · right
      rw [hexact]
      rwa [indented, weight_append, weight_append] at hfirst

/-- Where the budget is the largest there is, a line that can be filled has one row. -/
theorem length_lineRows_of_saturated {m : Measure} (hlargest : Size.bound ≤ m.budget + 1)
    {opened : Nat} {line : List Char} {b : Block} (h : fillLine m opened line = .ok b) :
    (lineRows m line).length = 1 := by
  have hlt := weight_lt_of_saturated hlargest h
  rw [lineRows, rowsOf_of_fits m _ _ (by rw [join_atoms]; omega)]
  rfl

/-- A line with atoms that can be filled has as many rows as the smallest of its groupings. -/
theorem lineRows_fewest {m : Measure} {opened : Nat} {line trailing : List Char} {as : List Atom}
    {b : Block} (h : fillLine m opened line = .ok b) (hdiv : Divides as trailing line)
    (hne : as ≠ []) :
    (∃ groups, IsGrouping m as groups ∧ groups.length = (lineRows m line).length) ∧
    ∀ groups, IsGrouping m as groups → (lineRows m line).length ≤ groups.length := by
  obtain ⟨a, more, rfl⟩ := List.exists_cons_of_ne_nil hne
  have hatoms := (atoms_eq_iff line (a :: more) trailing).mpr hdiv
  have hrows : lineRows m line = (rowsOf m trailing (a :: more)).all := by
    rw [lineRows, hatoms]
  refine ⟨hrows ▸ exists_grouping_rowsOf m trailing a more, fun groups hgroups => ?_⟩
  rcases budget_eq_or m with hexact | hlargest
  · rw [hrows]
    exact hgroups.length_rowsOf_le hexact trailing
  · obtain ⟨rest, others, rfl, -⟩ := hgroups.exists_first
    rw [length_lineRows_of_saturated hlargest h, List.length_cons]
    exact Nat.le_add_left 1 others.length

/-! ## The lines of a text -/

theorem Measure.uncapped_eq (m : Measure) (hcap : m.maxLines = 0) : m.uncapped = m := by
  cases m
  simp_all [uncapped]

/-- Without a cap every line of a text that is filled is filled by itself, too. -/
theorem exists_fillLine_of_fillLines {m : Measure} (hcap : m.maxLines = 0) {opened : Nat}
    {ls out : List (List Char)} (h : fillLines m opened ls = .ok out) :
    ∀ line ∈ ls, ∃ opened' b, opened < opened' ∧ fillLine m opened' line = .ok b := by
  have hm := m.uncapped_eq hcap
  induction ls generalizing opened out with
  | nil => simp
  | cons line others ih =>
    rw [← hm, fillLines_cons_eq_ok, Measure.uncapped_reached, if_neg Bool.false_ne_true] at h
    obtain ⟨-, b, hb, h⟩ := h
    rw [not_cut_of_uncapped hb, if_neg Bool.false_ne_true] at h
    obtain ⟨rest, hrest, -⟩ := h
    rw [hm] at hb hrest
    have hmore := (fillLine_shows hb).opened
    simp only [List.mem_cons, forall_eq_or_imp]
    refine ⟨⟨_, b, Nat.lt_succ_self opened, hb⟩, fun line hline => ?_⟩
    obtain ⟨opened', b', hlt, hb'⟩ := ih hrest line hline
    exact ⟨opened', b', by omega, hb'⟩

/-- A line by itself is filled with its own rows. -/
theorem exists_wrap_line {m : Measure} (hcap : m.maxLines = 0) {text out : List Char}
    (h : wrap m text = .ok out) {line : List Char} (hline : line ∈ lines text) :
    (∃ opened b, fillLine m opened line = .ok b) ∧
    ∃ alone, wrap m line = .ok alone ∧ lines alone = (lineRows m line).map Row.text := by
  have hm := m.uncapped_eq hcap
  have hsingle := lines_of_not_mem line (break_not_mem_of_mem_lines text line hline)
  have hlength := utf8Length_le_of_mem_lines hline
  obtain ⟨hroom, ls, hls, -⟩ := wrap_eq_ok.mp h
  obtain ⟨opened, b, hlt, hb⟩ := exists_fillLine_of_fillLines hcap hls line hline
  refine ⟨⟨opened, b, hb⟩, ?_⟩
  rw [← hm] at hb
  obtain ⟨b', hb', -⟩ := exists_fillLine_of_uncapped hb (Nat.succ_le_of_lt hlt)
  have hfill : fillLines m 0 (lines line) = .ok b'.lines := by
    have hcut : b'.cut = false := by
      rw [← hm] at hb'
      exact not_cut_of_uncapped hb'
    rw [hsingle, fillLines_cons_eq_ok, ← hm, Measure.uncapped_reached, hm,
      if_neg Bool.false_ne_true]
    refine ⟨by decide, b', hb', ?_⟩
    rw [hcut, if_neg Bool.false_ne_true]
    exact ⟨[], rfl, by simp⟩
  have halone : wrap m line = .ok (unlines b'.lines) :=
    wrap_eq_ok.mpr ⟨by omega, _, hfill, rfl⟩
  refine ⟨_, halone, ?_⟩
  rw [lines_wrap halone, Measure.keep, if_pos hcap, textRows, hsingle]
  simp

/-- Without a cap the lines of a filled text are the lines that come out of each of its lines, and
the atoms of a line can be grouped into so many lines, but not into fewer. -/
theorem wrap_fewest (m : Measure) (text : List Char) (hcap : m.maxLines = 0) :
    (Weighable m text → ∃ out, wrap m text = .ok out) ∧
    ∀ out, wrap m text = .ok out → ∃ blocks : List (List (List Char)),
      lines out = blocks.flatten ∧
      List.Forall₂ (fun line block => (∃ alone, wrap m line = .ok alone ∧ lines alone = block) ∧
        (∃ as trailing, Divides as trailing line) ∧
        ∀ as trailing, Divides as trailing line → as ≠ [] →
          (∃ groups, IsGrouping m as groups ∧ groups.length = block.length) ∧
          ∀ groups, IsGrouping m as groups → block.length ≤ groups.length)
        (lines text) blocks := by
  refine ⟨exists_wrap m text, ?_⟩
  intro out h
  refine ⟨(lines text).map fun line => (lineRows m line).map Row.text, ?_, ?_⟩
  · rw [lines_wrap h, Measure.keep, if_pos hcap, textRows, List.map_flatMap, List.flatMap_def]
  · rw [List.forall₂_map_right_iff, List.forall₂_same]
    intro line hline
    obtain ⟨⟨opened, b, hb⟩, halone⟩ := exists_wrap_line hcap h hline
    refine ⟨halone, ⟨_, _, isDivision_atoms line, join_atoms line⟩, ?_⟩
    intro as trailing hdiv hne
    rw [List.length_map]
    exact lineRows_fewest hb hdiv hne

/-- The indentation stays with the first word, a wide glyph without weight stays on a full line, and
a word that is too long stands alone. -/
theorem wrap_fewest_heavy :
    Weighable ⟨4, 0, 0⟩ "  a bcde日 fghijk l\n\nm ".toList ∧
    wrap ⟨4, 0, 0⟩ "  a bcde日 fghijk l\n\nm ".toList = .ok "  a\nbcde日\nfghijk\nl\n\nm ".toList ∧
    ∃ blocks : List (List (List Char)),
      lines "  a\nbcde日\nfghijk\nl\n\nm ".toList = blocks.flatten ∧
      List.Forall₂ (fun line block =>
        (∃ alone, wrap ⟨4, 0, 0⟩ line = .ok alone ∧ lines alone = block) ∧
        (∃ as trailing, Divides as trailing line) ∧
        ∀ as trailing, Divides as trailing line → as ≠ [] →
          (∃ groups, IsGrouping ⟨4, 0, 0⟩ as groups ∧ groups.length = block.length) ∧
          ∀ groups, IsGrouping ⟨4, 0, 0⟩ as groups → block.length ≤ groups.length)
        (lines "  a bcde日 fghijk l\n\nm ".toList) blocks := by
  have h : wrap ⟨4, 0, 0⟩ "  a bcde日 fghijk l\n\nm ".toList =
      .ok "  a\nbcde日\nfghijk\nl\n\nm ".toList := by
    decide +kernel
  exact ⟨⟨by decide +kernel, by decide +kernel⟩, h, (wrap_fewest ⟨4, 0, 0⟩ _ rfl).2 _ h⟩

end TwinScreen.Text
