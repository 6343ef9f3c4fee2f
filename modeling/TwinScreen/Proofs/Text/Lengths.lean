import TwinScreen.Proofs.Text.Division
import TwinScreen.Proofs.Text.Lines
import TwinScreen.Text.Paragraph

/-!
# Lengths of texts

Lengths in bytes are counted by lines, each with the line feed behind it (`utf8Length_lines`). A
wide glyph takes three bytes and any other character at least one, so a line has no more atoms than
bytes (`length_atoms_le`).
-/
namespace TwinScreen.Text

theorem utf8Length_append (s t : List Char) :
    utf8Length (s ++ t) = utf8Length s + utf8Length t := by
  induction s with
  | nil => simp [utf8Length]
  | cons c rest ih => simp [utf8Length, ih, Nat.add_assoc]

/-- The length of several lines, each with a line feed behind it. -/
def brokenLength : List (List Char) → Nat
  | [] => 0
  | line :: others => utf8Length line + 1 + brokenLength others

theorem brokenLength_append (xs ys : List (List Char)) :
    brokenLength (xs ++ ys) = brokenLength xs + brokenLength ys := by
  induction xs with
  | nil => simp [brokenLength]
  | cons line others ih => simp [brokenLength, ih, Nat.add_assoc]

theorem brokenLength_le_of_sublist {xs ys : List (List Char)} (h : xs.Sublist ys) :
    brokenLength xs ≤ brokenLength ys := by
  induction h with
  | slnil => exact Nat.le_refl _
  | cons line _ ih =>
    rw [brokenLength]
    omega
  | cons_cons line _ ih =>
    rw [brokenLength, brokenLength]
    omega

/-- Joined lines have one line feed less than there are lines. -/
theorem utf8Length_unlines (ls : List (List Char)) (h : ls ≠ []) :
    utf8Length (unlines ls) + 1 = brokenLength ls := by
  induction ls with
  | nil => exact absurd rfl h
  | cons line others ih =>
    cases others with
    | nil => rfl
    | cons next more =>
      have hbreak : ('\n' : Char).utf8Size = 1 := rfl
      rw [unlines_cons (by simp), utf8Length_append, utf8Length, hbreak, brokenLength,
        ← ih (by simp)]
      omega

theorem utf8Length_lines (text : List Char) : utf8Length text + 1 = brokenLength (lines text) := by
  rw [← utf8Length_unlines _ (lines_ne_nil text), unlines_lines]

/-- A line is no longer than the text. -/
theorem utf8Length_le_of_mem_lines {text line : List Char} (h : line ∈ lines text) :
    utf8Length line ≤ utf8Length text := by
  have hle := brokenLength_le_of_sublist (List.singleton_sublist.mpr h)
  rw [← utf8Length_lines, brokenLength, brokenLength] at hle
  omega

/-! ## Bytes of atoms -/

theorem utf8Length_pos {s : List Char} (h : s ≠ []) : 1 ≤ utf8Length s := by
  obtain ⟨c, rest, rfl⟩ := List.exists_cons_of_ne_nil h
  have hc := c.utf8Size_pos
  rw [utf8Length]
  omega

theorem utf8Size_of_wide {c : Char} (h : isWide c = true) : 3 ≤ c.utf8Size := by
  have hwide : 0x800 ≤ c.toNat := by simpa [isWide] using h
  rcases c.utf8Size_eq with hone | htwo | hthree | hfour
  · have hle := UInt32.le_iff_toNat_le.mp (Char.utf8Size_eq_one_iff.mp hone)
    exact absurd (hwide.trans hle) (by decide)
  · have hle := UInt32.le_iff_toNat_le.mp (Char.utf8Size_eq_two_iff.mp htwo).2
    exact absurd (hwide.trans hle) (by decide)
  · omega
  · omega

/-- A wide glyph takes three bytes at least. -/
theorem utf8Length_of_glyph {text : List Char} (h : IsGlyph text) : 3 ≤ utf8Length text := by
  obtain ⟨c, rfl, hwide, -⟩ := h
  simpa [utf8Length] using utf8Size_of_wide hwide

theorem utf8Length_of_atom {text : List Char} (h : IsAtom text) : 1 ≤ utf8Length text :=
  utf8Length_pos h.ne_nil

/-- Every atom takes a byte of its line at least. -/
theorem length_atoms_le (line : List Char) : (atoms line).1.length ≤ utf8Length line := by
  have hjoin (as : List Atom) (trailing : List Char) (h : ∀ a ∈ as, IsAtom a.text) :
      as.length ≤ utf8Length (join as trailing) := by
    induction as with
    | nil => exact Nat.zero_le _
    | cons a more ih =>
      simp only [List.mem_cons, forall_eq_or_imp] at h
      have htext := utf8Length_of_atom h.1
      have hmore := ih h.2
      rw [join, utf8Length_append, utf8Length_append, List.length_cons]
      omega
  have h := hjoin _ (atoms line).2 (isDivision_atoms line).text_atom
  rwa [join_atoms] at h

end TwinScreen.Text
