import TwinScreen.Text.Blank

/-!
# Atoms

The pieces of a line that stay whole when it is divided. A wide glyph is an atom of its own; narrow
characters that are not blank form an atom together with their neighbours of the same kind. The
blank characters in front of an atom are its lead; those after the last atom trail the line. Leads,
texts and the trailing characters put together in order are the line (`join_atoms`).
-/
namespace TwinScreen.Text

/-- Wide glyphs are the characters that take three or more bytes in UTF-8. -/
def isWide (c : Char) : Bool := 0x800 ≤ c.toNat

/-- A character inside a run of narrow characters. -/
def isNarrow (c : Char) : Bool := !isBlank c && !isWide c

/-- Weights are counted in hundredths of a narrow character. -/
def narrowWeight : Nat := 100

def glyphWeight (wide : Nat) (c : Char) : Nat := if isWide c then wide else narrowWeight

/-- The weight of a line whose wide glyphs weigh `wide` each. -/
def weight (wide : Nat) : List Char → Nat
  | [] => 0
  | c :: rest => glyphWeight wide c + weight wide rest

/-- An unbreakable piece of a line with the blank characters in front of it. -/
structure Atom where
  lead : List Char
  text : List Char
  deriving DecidableEq, Repr

/-- What is left of a line is no longer than the line, so that dividing it ends. -/
theorem length_dropWhile_le (p : Char → Bool) (s : List Char) :
    (s.dropWhile p).length ≤ s.length := by
  simpa using (List.dropWhile_sublist p (l := s)).length_le

/-- The atoms of a line and the blank characters behind the last one. -/
def atoms (line : List Char) : List Atom × List Char :=
  match _h : line.dropWhile isBlank with
  | [] => ([], line)
  | c :: rest =>
      let lead := line.takeWhile isBlank
      if isWide c then
        let (more, trailing) := atoms rest
        (⟨lead, [c]⟩ :: more, trailing)
      else
        let (more, trailing) := atoms (rest.dropWhile isNarrow)
        (⟨lead, c :: rest.takeWhile isNarrow⟩ :: more, trailing)
termination_by line.length
decreasing_by
  all_goals
    have hline := length_dropWhile_le isBlank line
    rw [_h, List.length_cons] at hline
  · omega
  · have hrest := length_dropWhile_le isNarrow rest
    omega

/-- The line made of these atoms and these trailing characters. -/
def join : List Atom → List Char → List Char
  | [], trailing => trailing
  | a :: more, trailing => a.lead ++ a.text ++ join more trailing

/-- Dividing a line loses none of its characters. -/
theorem join_atoms (line : List Char) : join (atoms line).1 (atoms line).2 = line := by
  fun_induction atoms line with
  | case1 => rfl
  | case2 line c rest h lead hc more trailing ih =>
    have hl := List.takeWhile_append_dropWhile (p := isBlank) (l := line)
    simp only [join]
    rw [h] at hl
    grind
  | case3 line c rest h lead hc more trailing ih =>
    have hl := List.takeWhile_append_dropWhile (p := isBlank) (l := line)
    have hr := List.takeWhile_append_dropWhile (p := isNarrow) (l := rest)
    simp only [join]
    rw [h] at hl
    grind

end TwinScreen.Text
