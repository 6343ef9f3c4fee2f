/-!
# Blank characters and lines

A character is blank when it has the Unicode property White_Space. Text is divided into lines at
every line feed, so that joining the lines with line feeds gives the text again.
-/
namespace TwinScreen.Text

/-- The Unicode property White_Space. -/
def isBlank (c : Char) : Bool :=
  let n := c.toNat
  (9 ≤ n && n ≤ 13) || n == 0x20 || n == 0x85 || n == 0xA0 || n == 0x1680 ||
    (0x2000 ≤ n && n ≤ 0x200A) || n == 0x2028 || n == 0x2029 || n == 0x202F || n == 0x205F ||
    n == 0x3000

/-- The characters without the blank ones at both ends. -/
def trim (s : List Char) : List Char :=
  ((s.dropWhile isBlank).reverse.dropWhile isBlank).reverse

/-- The lines of a text: there is always one more than there are line feeds. -/
def lines : List Char → List (List Char)
  | [] => [[]]
  | c :: rest =>
      if c = '\n' then [] :: lines rest
      else match lines rest with
        | [] => [[c]]
        | line :: others => (c :: line) :: others

def unlines : List (List Char) → List Char
  | [] => []
  | [line] => line
  | line :: others => line ++ '\n' :: unlines others

theorem lines_ne_nil (s : List Char) : lines s ≠ [] := by
  cases s with
  | nil => simp [lines]
  | cons c rest =>
    unfold lines
    split
    · simp
    · split <;> simp

theorem unlines_cons {line : List Char} {others : List (List Char)} (h : others ≠ []) :
    unlines (line :: others) = line ++ '\n' :: unlines others := by
  cases others with
  | nil => exact absurd rfl h
  | cons _ _ => rfl

/-- Lines make the text again that they were taken from. -/
theorem unlines_lines (s : List Char) : unlines (lines s) = s := by
  induction s with
  | nil => rfl
  | cons c rest ih =>
    unfold lines
    split
    · rename_i h
      rw [unlines_cons (lines_ne_nil rest), ih, h]
      rfl
    · split
      · rename_i h
        exact absurd h (lines_ne_nil rest)
      · rename_i line others h
        rw [h] at ih
        cases others with
        | nil => simp_all [unlines]
        | cons _ _ => simpa [unlines] using ih

end TwinScreen.Text
