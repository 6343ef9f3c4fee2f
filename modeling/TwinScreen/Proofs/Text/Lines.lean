import TwinScreen.Text.Atom

/-!
# Lines and their weights

Lines hold no line feed, and text put together from such lines is divided into them again. The
weight of a line is the sum over its parts.
-/
namespace TwinScreen.Text

theorem weight_append (wide : Nat) (s t : List Char) :
    weight wide (s ++ t) = weight wide s + weight wide t := by
  induction s with
  | nil => simp [weight]
  | cons c rest ih => simp [weight, ih, Nat.add_assoc]

/-! ## Division into lines -/

theorem lines_append_break (line rest : List Char) (h : '\n' ∉ line) :
    lines (line ++ '\n' :: rest) = line :: lines rest := by
  induction line with
  | nil => simp [lines]
  | cons c line ih =>
    simp only [List.mem_cons, not_or] at h
    simp only [List.cons_append, lines, if_neg (Ne.symm h.1), ih h.2]

theorem lines_of_not_mem (line : List Char) (h : '\n' ∉ line) : lines line = [line] := by
  induction line with
  | nil => rfl
  | cons c line ih =>
    simp only [List.mem_cons, not_or] at h
    simp only [lines, if_neg (Ne.symm h.1), ih h.2]

theorem break_not_mem_of_mem_lines (s : List Char) : ∀ line ∈ lines s, '\n' ∉ line := by
  induction s with
  | nil => simp [lines]
  | cons c rest ih =>
    unfold lines
    split
    · simpa using ih
    · rename_i hc
      split
      · simp [Ne.symm hc]
      · rename_i first others hl
        rw [hl] at ih
        simp only [List.mem_cons, forall_eq_or_imp] at ih ⊢
        exact ⟨by simp [Ne.symm hc, ih.1], ih.2⟩

/-- Text put together from lines without line feeds has exactly these lines. -/
theorem lines_unlines (ls : List (List Char)) (hne : ls ≠ []) (h : ∀ line ∈ ls, '\n' ∉ line) :
    lines (unlines ls) = ls := by
  induction ls with
  | nil => exact absurd rfl hne
  | cons line others ih =>
    simp only [List.mem_cons, forall_eq_or_imp] at h
    cases others with
    | nil => exact lines_of_not_mem line h.1
    | cons next more =>
      rw [unlines_cons (by simp), lines_append_break _ _ h.1, ih (by simp) h.2]

theorem unlines_append (xs ys : List (List Char)) (hx : xs ≠ []) (hy : ys ≠ []) :
    unlines (xs ++ ys) = unlines xs ++ '\n' :: unlines ys := by
  induction xs with
  | nil => exact absurd rfl hx
  | cons line others ih =>
    cases others with
    | nil => simp [unlines, unlines_cons hy]
    | cons next more =>
      have hcons : next :: more ≠ [] := by simp
      rw [List.cons_append, unlines_cons (by simp), ih hcons, unlines_cons hcons,
        List.append_assoc, List.cons_append]

end TwinScreen.Text
