import Mathlib.Data.List.Basic
import Mathlib.Data.List.TakeWhile
import TwinScreen.Toml.Number

/-!
# Whole numbers in base 10

The digits of a natural number, as they are usually written, are a value, and it is this number
(`ofWritten?_toDigits`). Digits are told from the marks of everything else that may be written, and
the first digit is zero only where it is the only one.
-/
namespace TwinScreen.Toml

theorem value?_of_isDigit {c : Char} (h : c.isDigit = true) :
    Hexadecimal.value? c = some (c.toNat - 48) :=
  if_pos (Char.isDigit_iff_toNat.mp h)

/-! ## The digits of a number -/

theorem isDigit_of_mem_toDigits {n : Nat} {c : Char} (h : c ∈ Nat.toDigits 10 n) :
    c.isDigit = true :=
  Nat.isDigit_of_mem_toDigits (by decide) (by decide) h

/-- Digits of a number have no leading zero. -/
theorem head?_toDigits_ne_zero (n : Nat) (h : 0 < n) : (Nat.toDigits 10 n).head? ≠ some '0' := by
  induction n using Nat.base_induction 10 (by decide) with
  | single m hm =>
    rw [Nat.toDigits_of_lt_base hm]
    simpa using Nat.pos_iff_ne_zero.mp h
  | digit m k hk hm ih =>
    rw [← Nat.toDigits_append_toDigits (by decide) hm hk, List.head?_append_of_ne_nil _ (by simp)]
    exact ih hm

/-- No zero stands in front of other digits. -/
theorem padded_toDigits (n : Nat) : padded (Nat.toDigits 10 n) = false := by
  rcases Nat.eq_zero_or_pos n with rfl | hpos
  · rfl
  · unfold padded
    split
    · rename_i d rest heq
      exact absurd (by rw [heq]; rfl) (head?_toDigits_ne_zero n hpos)
    · rfl

/-! ## Digits are read -/

theorem signed_of_digits {s : List Char} (h : ∀ c ∈ s, c.isDigit = true) :
    signed s = (false, s) := by
  unfold signed
  split
  · exact absurd (h '-' (by simp)) (by decide)
  · exact absurd (h '+' (by simp)) (by decide)
  · rfl

theorem digits?_of_digits {s : List Char} (h : ∀ c ∈ s, c.isDigit = true) :
    digits? 10 s = some (s.map fun c => c.toNat - 48) := by
  induction s with
  | nil => rfl
  | cons c rest ih =>
    simp only [List.mem_cons, forall_eq_or_imp] at h
    have hbound := (Char.isDigit_iff_toNat.mp h.1).2
    have hlt : c.toNat - 48 < 10 := by
      have hnine : ('9' : Char).toNat = 57 := rfl
      omega
    have hrest := ih h.2
    rw [digits?] at hrest ⊢
    simp [value?_of_isDigit h.1, hlt, hrest]

theorem ofDigits_map (s : List Char) :
    ofDigits 10 (s.map fun c => c.toNat - 48) = Nat.ofDigitChars 10 s 0 := by
  rw [ofDigits, List.foldl_map, Nat.ofDigitChars_eq_foldl]
  rfl

theorem withoutUnderscores?_of_not_mem (isDigit : Char → Bool) (joins : Bool) (s : List Char)
    (h : '_' ∉ s) : withoutUnderscores? isDigit joins s = some s := by
  induction s generalizing joins with
  | nil => rfl
  | cons c rest ih =>
    simp only [List.mem_cons, not_or] at h
    rw [withoutUnderscores?, ih _ h.2]
    · rfl
    · rintro d more rfl
      exact absurd rfl h.1
    · rintro rfl
      exact absurd rfl h.1

theorem joined?_of_digits {isDigit : Char → Bool} {s : List Char}
    (h : ∀ c ∈ s, c.isDigit = true) : joined? isDigit s = some s := by
  unfold joined?
  split
  · rfl
  · exact absurd (h '_' (by simp)) (by decide)
  · rename_i c rest _
    have hrest : '_' ∉ rest := fun hmem => absurd (h '_' (by simp [hmem])) (by decide)
    rw [withoutUnderscores?_of_not_mem _ _ _ hrest]
    rfl

/-- Digits without superfluous zeros are a whole number. -/
theorem ofDecimal?_of_digits {s : List Char} (hne : s ≠ []) (h : ∀ c ∈ s, c.isDigit = true)
    (hpad : padded s = false) :
    Value.ofDecimal? s = some (.integer (Nat.ofDigitChars 10 s 0)) := by
  obtain ⟨c, rest, rfl⟩ := List.exists_cons_of_ne_nil hne
  have hdigits := digits?_of_digits h
  have hvalue := ofDigits_map (c :: rest)
  rw [List.map_cons] at hdigits hvalue
  simp [Value.ofDecimal?, signed_of_digits h, hpad, joined?_of_digits h, Value.ofWhole, hdigits,
    hvalue]

/-- Digits without a leading zero are read as their number. -/
theorem ofNumber?_of_digits {s : List Char} (hne : s ≠ []) (h : ∀ c ∈ s, c.isDigit = true)
    (hpad : padded s = false) :
    Value.ofNumber? s = some (.integer (Nat.ofDigitChars 10 s 0)) := by
  have hrest : s.dropWhile Char.isDigit = [] := List.dropWhile_eq_nil_iff.mpr h
  rw [Value.ofNumber?, signed_of_digits h, hrest]
  exact ofDecimal?_of_digits hne h hpad

/-- Nothing else that may be written starts with a digit, unless a mark follows a zero. -/
theorem ofWritten?_of_digits {s : List Char} (hne : s ≠ []) (h : ∀ c ∈ s, c.isDigit = true)
    (hpad : padded s = false) :
    Value.ofWritten? s = some (.integer (Nat.ofDigitChars 10 s 0)) := by
  have hword : ∀ c word, c.isDigit = false → s ≠ c :: word := by
    rintro c word hc rfl
    exact absurd (h c (by simp)) (by simp [hc])
  rw [Value.ofWritten?, signed_of_digits h]
  dsimp only
  rw [if_neg (hword _ _ rfl), if_neg (hword _ _ rfl), if_neg (hword _ _ rfl),
    if_neg (hword _ _ rfl)]
  split
  · exact absurd rfl hne
  · simp [padded] at hpad
  · exact ofNumber?_of_digits hne h hpad

/-- The written form of a natural number is this number. -/
theorem ofWritten?_toDigits (n : Nat) :
    Value.ofWritten? (Nat.toDigits 10 n) = some (.integer n) := by
  rw [ofWritten?_of_digits Nat.toDigits_ne_nil (fun _ => isDigit_of_mem_toDigits)
    (padded_toDigits n), Nat.ofDigitChars_ten_toDigits]

end TwinScreen.Toml
