import Mathlib.Data.List.Infix
import TwinScreen.Proofs.Text.Capped

/-!
# What filling keeps

The atoms of a text are what can be read of it: its characters that are not blank are the texts of
its atoms, one after the other (`inked_eq_flatten`). Filling divides a text anew, and the atoms that
are found in the result are the first ones of the text, all of them unless the cap struck
(`wrap_keeps_atoms`): no atom is cut, glued to its neighbour or moved.
-/
namespace TwinScreen.Text

def atomTexts (text : List Char) : List (List Char) :=
  (lines text).flatMap fun line => (atoms line).1.map Atom.text

def inked (s : List Char) : List Char := s.filter fun c => !isBlank c

/-! ## Atoms in rows -/

def Row.atomTexts (r : Row) : List (List Char) := r.atoms.map Atom.text

def Rows.atomTexts (rows : Rows) : List (List Char) := rows.all.flatMap Row.atomTexts

theorem atomTexts_push (rows : Rows) (a : Atom) :
    (rows.push a).atomTexts = a.text :: rows.atomTexts := by
  simp [Rows.atomTexts, Rows.all, Row.atomTexts, Row.push]

theorem atomTexts_below (rows : Rows) : rows.below.atomTexts = rows.atomTexts := by
  simp [Rows.atomTexts, Rows.all, Row.atomTexts]

theorem atomTexts_rowsFrom (m : Measure) (trailing : List Char) (w : Nat) (as : List Atom) :
    (rowsFrom m trailing w as).atomTexts = as.map Atom.text := by
  induction as generalizing w with
  | nil => simp [rowsFrom, Rows.atomTexts, Rows.all, Row.atomTexts]
  | cons a more ih =>
    rw [rowsFrom, List.map_cons]
    split
    · rw [atomTexts_push, ih]
    · rw [atomTexts_below, atomTexts_push, ih]

/-- The rows of a line hold all its atoms in order. -/
theorem atomTexts_rowsOf (m : Measure) (trailing : List Char) (as : List Atom) :
    (rowsOf m trailing as).atomTexts = as.map Atom.text := by
  cases as with
  | nil => exact atomTexts_rowsFrom m trailing 0 []
  | cons a more =>
    rw [rowsOf, List.map_cons]
    split <;> rw [atomTexts_push, atomTexts_rowsFrom]

/-- All rows of a text together hold its atoms. -/
theorem atomTexts_textRows (m : Measure) (text : List Char) :
    (textRows m text).flatMap Row.atomTexts = atomTexts text := by
  rw [textRows, List.flatMap_assoc]
  exact List.flatMap_congr fun line _ => atomTexts_rowsOf m (atoms line).2 (atoms line).1

/-- The atoms that are found in a filled text are those of its rows. -/
theorem atomTexts_wrap {m : Measure} {text out : List Char} (h : wrap m text = .ok out) :
    atomTexts out = (m.keep 0 (textRows m text)).flatMap Row.atomTexts := by
  rw [← atomTexts_textRows m out, textRows_wrap h]

/-! ## Characters that are not blank -/

theorem inked_append (s t : List Char) : inked (s ++ t) = inked s ++ inked t :=
  List.filter_append s t

theorem inked_of_blank {s : List Char} (h : AllBlank s) : inked s = [] := by
  simpa [inked, AllBlank] using h

/-- Atoms have no blanks inside. -/
theorem inked_of_atom {text : List Char} (h : IsAtom text) : inked text = text := by
  refine List.filter_eq_self.mpr fun c hc => ?_
  rw [h.not_blank c hc]
  rfl

/-- What is not blank in a line is the text of its atoms. -/
theorem inked_join (as : List Atom) (trailing : List Char) (h : IsDivision as trailing) :
    inked (join as trailing) = (as.map Atom.text).flatten := by
  induction as with
  | nil => exact inked_of_blank h.trailing_blank
  | cons a more ih =>
    rw [join, inked_append, inked_append, inked_of_blank (h.lead_blank a (by simp)),
      inked_of_atom (h.text_atom a (by simp)), ih h.tail]
    rfl

theorem inked_unlines (ls : List (List Char)) : inked (unlines ls) = ls.flatMap inked := by
  induction ls with
  | nil => rfl
  | cons line others ih =>
    cases others with
    | nil => simp [unlines]
    | cons next more =>
      have hbreak : inked ('\n' :: unlines (next :: more)) = inked (unlines (next :: more)) := rfl
      rw [unlines_cons (by simp), inked_append, hbreak, ih, ← List.flatMap_cons]

/-- What can be read of a text are the texts of its atoms. -/
theorem inked_eq_flatten (text : List Char) : inked text = (atomTexts text).flatten := by
  have hline : ∀ line, inked line = ((atoms line).1.map Atom.text).flatMap id := by
    intro line
    rw [List.flatMap_id, ← inked_join _ _ (isDivision_atoms line), join_atoms]
  rw [← List.flatMap_id, atomTexts, List.flatMap_assoc, ← funext hline, ← inked_unlines,
    unlines_lines]

/-! ## Filled text -/

/-- The cap lets everything through. -/
def Unabridged (m : Measure) (text : List Char) : Prop :=
  m.maxLines = 0 ∨ ∃ full, wrap m.uncapped text = .ok full ∧ (lines full).length ≤ m.maxLines

/-- A cap that lets everything through can be left out. -/
theorem keep_of_unabridged {m : Measure} {text : List Char} (h : Unabridged m text) :
    m.keep 0 (textRows m text) = textRows m text := by
  unfold Measure.keep
  split
  · rfl
  · rename_i hcap
    obtain hnone | ⟨full, hfull, hlength⟩ := h
    · exact absurd hnone hcap
    · rw [lines_wrap hfull, Measure.uncapped_keep, textRows_uncapped, List.length_map] at hlength
      exact List.take_of_length_le hlength

/-- The atoms of a filled text are the first atoms of the text, in order and each as it was, and all
of them if the cap lets all lines through. What can be read of either text are its atoms and no
more, so what can be read of the filled text is where reading the text starts. -/
theorem wrap_keeps_atoms (m : Measure) (text : List Char) :
    (Weighable m text → ∃ out, wrap m text = .ok out) ∧
    ∀ out, wrap m text = .ok out →
      atomTexts out <+: atomTexts text ∧
      (Unabridged m text → atomTexts out = atomTexts text) ∧
      inked out = (atomTexts out).flatten ∧ inked text = (atomTexts text).flatten ∧
      inked out <+: inked text := by
  refine ⟨exists_wrap m text, ?_⟩
  intro out h
  have hfirst : atomTexts out <+: atomTexts text := by
    rw [atomTexts_wrap h, ← atomTexts_textRows m text]
    exact (m.keep_isPrefix 0 _).flatMap _
  refine ⟨hfirst, ?_, inked_eq_flatten out, inked_eq_flatten text, ?_⟩
  · intro hall
    rw [atomTexts_wrap h, keep_of_unabridged hall, atomTexts_textRows]
  · rw [inked_eq_flatten, inked_eq_flatten]
    exact hfirst.flatten

/-- A cap that is just reached: blanks are lost at two breaks, and every atom is found again. -/
theorem wrap_keeps_atoms_unabridged :
    Weighable ⟨4, 150, 5⟩ "   ab\u3000日x cde \n\nf".toList ∧
    wrap ⟨4, 150, 5⟩ "   ab\u3000日x cde \n\nf".toList = .ok "ab\n日x\ncde \n\nf".toList ∧
    Unabridged ⟨4, 150, 5⟩ "   ab\u3000日x cde \n\nf".toList ∧
    atomTexts "ab\n日x\ncde \n\nf".toList = atomTexts "   ab\u3000日x cde \n\nf".toList := by
  have h : wrap ⟨4, 150, 5⟩ "   ab\u3000日x cde \n\nf".toList =
      .ok "ab\n日x\ncde \n\nf".toList := by
    decide +kernel
  have hall : Unabridged ⟨4, 150, 5⟩ "   ab\u3000日x cde \n\nf".toList :=
    .inr ⟨"ab\n日x\ncde \n\nf".toList, by decide +kernel, by decide +kernel⟩
  exact ⟨⟨by decide +kernel, by decide +kernel⟩, h, hall,
    ((wrap_keeps_atoms ⟨4, 150, 5⟩ _).2 _ h).2.1 hall⟩

end TwinScreen.Text
