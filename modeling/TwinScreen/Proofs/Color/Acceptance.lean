import TwinScreen.Proofs.Color.Notation

/-!
# Which texts are colors

Colors are documented as a number sign and six or eight hexadecimal digits, with blank characters
around them. Every such text is a color. Of the other texts only those are colors that have a plus
sign in place of the first digit of some channel. The rest is refused, and the error carries the
text as it was (`parse_accepts_iff`).
-/
namespace TwinScreen

namespace Hexadecimal

/-- A decimal digit or one of the first six letters, in either case. -/
def IsDigit (c : Char) : Prop :=
  ('0' ≤ c ∧ c ≤ '9') ∨ ('A' ≤ c ∧ c ≤ 'F') ∨ ('a' ≤ c ∧ c ≤ 'f')

theorem exists_value?_iff {c : Char} : (∃ n, value? c = some n) ↔ IsDigit c := by
  -- The order of characters is that of their numbers, which `value?` compares.
  have hdigit : IsDigit c ↔ (48 ≤ c.toNat ∧ c.toNat ≤ 57) ∨ (65 ≤ c.toNat ∧ c.toNat ≤ 70) ∨
      (97 ≤ c.toNat ∧ c.toNat ≤ 102) := Iff.rfl
  rw [hdigit, ← Option.isSome_iff_exists, value?]
  split
  · exact iff_of_true rfl (.inl ‹_›)
  · split
    · exact iff_of_true rfl (.inr (.inl ‹_›))
    · split
      · exact iff_of_true rfl (.inr (.inr ‹_›))
      · exact iff_of_false Bool.false_ne_true (by omega)

theorem isDigit_ne_sign {c : Char} (h : IsDigit c) : c ≠ '+' := by
  rintro rfl
  revert h
  unfold IsDigit
  decide

/-- Any two digits spell a byte. -/
theorem exists_spellsByte_iff {high low : Char} :
    (∃ b, SpellsByte b high low) ↔ IsDigit high ∧ IsDigit low := by
  rw [← exists_value?_iff, ← exists_value?_iff]
  constructor
  · rintro ⟨b, h⟩
    obtain ⟨hhigh, hlow⟩ := spellsByte_iff.mp h
    exact ⟨⟨_, hhigh⟩, _, hlow⟩
  · rintro ⟨⟨m, hhigh⟩, n, hlow⟩
    exact ⟨_, spellsByte_of_values hhigh hlow⟩

end Hexadecimal

namespace Color

open Hexadecimal

variable {c : Color} {s : List Char}

/-- The documented notation: a number sign and exactly six or eight digits, between blank
characters. -/
def IsNotation (s : List Char) : Prop :=
  ∃ before digits after, s = before ++ '#' :: digits ++ after ∧ Text.AllBlank before ∧
    Text.AllBlank after ∧ (digits.length = 6 ∨ digits.length = 8) ∧ ∀ d ∈ digits, IsDigit d

/-- A color takes six or eight digits. -/
theorem WrittenIn.exists_digits (h : c.WrittenIn SpellsByte s) :
    ∃ digits, s = '#' :: digits ∧ (digits.length = 6 ∨ digits.length = 8) ∧
      ∀ d ∈ digits, IsDigit d := by
  have hpair {b : UInt8} {high low : Char} (hb : SpellsByte b high low) :
      IsDigit high ∧ IsDigit low := exists_spellsByte_iff.mp ⟨b, hb⟩
  cases h with
  | short red green blue _ =>
    exact ⟨_, rfl, .inl rfl, by simp [hpair red, hpair green, hpair blue]⟩
  | full red green blue alpha =>
    exact ⟨_, rfl, .inr rfl, by simp [hpair red, hpair green, hpair blue, hpair alpha]⟩

/-- Six digits are a color without transparency. -/
theorem exists_writtenIn_of_six {digits : List Char} (hlength : digits.length = 6)
    (hdigits : ∀ d ∈ digits, IsDigit d) : ∃ c : Color, c.WrittenIn SpellsByte ('#' :: digits) := by
  match digits, hlength with
  | [r₁, r₂, g₁, g₂, b₁, b₂], _ =>
    simp only [List.forall_mem_cons] at hdigits
    obtain ⟨hr₁, hr₂, hg₁, hg₂, hb₁, hb₂, _⟩ := hdigits
    obtain ⟨red, hred⟩ := exists_spellsByte_iff.mpr ⟨hr₁, hr₂⟩
    obtain ⟨green, hgreen⟩ := exists_spellsByte_iff.mpr ⟨hg₁, hg₂⟩
    obtain ⟨blue, hblue⟩ := exists_spellsByte_iff.mpr ⟨hb₁, hb₂⟩
    exact ⟨⟨red, green, blue, 255⟩, .short hred hgreen hblue rfl⟩

theorem exists_writtenIn_of_eight {digits : List Char} (hlength : digits.length = 8)
    (hdigits : ∀ d ∈ digits, IsDigit d) : ∃ c : Color, c.WrittenIn SpellsByte ('#' :: digits) := by
  match digits, hlength with
  | [r₁, r₂, g₁, g₂, b₁, b₂, a₁, a₂], _ =>
    simp only [List.forall_mem_cons] at hdigits
    obtain ⟨hr₁, hr₂, hg₁, hg₂, hb₁, hb₂, ha₁, ha₂, _⟩ := hdigits
    obtain ⟨red, hred⟩ := exists_spellsByte_iff.mpr ⟨hr₁, hr₂⟩
    obtain ⟨green, hgreen⟩ := exists_spellsByte_iff.mpr ⟨hg₁, hg₂⟩
    obtain ⟨blue, hblue⟩ := exists_spellsByte_iff.mpr ⟨hb₁, hb₂⟩
    obtain ⟨alpha, halpha⟩ := exists_spellsByte_iff.mpr ⟨ha₁, ha₂⟩
    exact ⟨⟨red, green, blue, alpha⟩, .full hred hgreen hblue halpha⟩

/-- The documented notation is what spells a color with two digits for each channel. -/
theorem exists_spelledIn_iff : (∃ c : Color, c.SpelledIn SpellsByte s) ↔ IsNotation s := by
  constructor
  · rintro ⟨c, before, text, after, heq, hbefore, hafter, h⟩
    obtain ⟨digits, rfl, hlength, hdigits⟩ := h.exists_digits
    exact ⟨before, digits, after, heq, hbefore, hafter, hlength, hdigits⟩
  · rintro ⟨before, digits, after, heq, hbefore, hafter, hlength, hdigits⟩
    have hwritten : ∃ c : Color, c.WrittenIn SpellsByte ('#' :: digits) :=
      hlength.elim (exists_writtenIn_of_six · hdigits) (exists_writtenIn_of_eight · hdigits)
    obtain ⟨c, hc⟩ := hwritten
    exact ⟨c, before, _, after, heq, hbefore, hafter, hc⟩

/-- Without a plus sign every channel is spelled by its two digits. -/
theorem SpelledIn.digits (hsign : '+' ∉ s) (h : c.SpelledIn SpellsChannel s) :
    c.SpelledIn SpellsByte s := by
  obtain ⟨before, text, after, rfl, hbefore, hafter, htext⟩ := h
  refine ⟨before, text, after, rfl, hbefore, hafter, ?_⟩
  have hpair {b : UInt8} {high low : Char} (hne : high ≠ '+') (hb : SpellsChannel b high low) :
      SpellsByte b high low := hb.resolve_right fun hplus => hne hplus.1
  have hne {d : Char} (hd : d ∈ text) : d ≠ '+' := by
    rintro rfl
    exact hsign (by simp [hd])
  cases htext with
  | short red green blue alpha =>
    exact .short (hpair (hne (by simp)) red) (hpair (hne (by simp)) green)
      (hpair (hne (by simp)) blue) alpha
  | full red green blue alpha =>
    exact .full (hpair (hne (by simp)) red) (hpair (hne (by simp)) green)
      (hpair (hne (by simp)) blue) (hpair (hne (by simp)) alpha)

/-- A text is refused with itself in the error, and only if it has no color. -/
theorem parse_eq_error_iff {text : String} {e : Unreadable} :
    parse text = .error e ↔ e = ⟨text⟩ ∧ ∀ c, parse text ≠ .ok c := by
  unfold parse
  cases ofWritten? text.toList <;> simp [eq_comm]

/-- The documented notation has no plus sign. -/
theorem IsNotation.no_sign (h : IsNotation s) : '+' ∉ s := by
  obtain ⟨before, digits, after, rfl, hbefore, hafter, _, hdigits⟩ := h
  intro hsign
  rw [List.append_assoc, List.cons_append, List.mem_append, List.mem_cons, List.mem_append] at hsign
  rcases hsign with hd | hd | hd | hd
  · cases hbefore _ hd
  · cases hd
  · exact isDigit_ne_sign (hdigits _ hd) rfl
  · cases hafter _ hd

/-- A text is a color exactly if it spells one, with two digits or a plus sign and one digit for
each channel; any other text is refused, and the error carries it unchanged. The documented notation
is what is accepted and has no plus sign. -/
theorem parse_accepts_iff (text : String) :
    (∀ c, parse text = .ok c ↔ c.SpelledIn SpellsChannel text.toList) ∧
      (∀ e, parse text = .error e ↔
        e = ⟨text⟩ ∧ ∀ c : Color, ¬ c.SpelledIn SpellsChannel text.toList) ∧
      (IsNotation text.toList ↔ '+' ∉ text.toList ∧ ∃ c, parse text = .ok c) := by
  refine ⟨fun c => parse_eq_ok_iff, fun e => ?_, fun h => ⟨h.no_sign, ?_⟩, ?_⟩
  · rw [parse_eq_error_iff]
    simp only [ne_eq, parse_eq_ok_iff]
  · obtain ⟨c, hc⟩ := exists_spelledIn_iff.mpr h
    exact ⟨c, parse_of_spelledIn hc⟩
  · rintro ⟨hsign, c, hc⟩
    exact exists_spelledIn_iff.mp ⟨c, (parse_eq_ok_iff.mp hc).digits hsign⟩

/-- Four characters in seven bytes. -/
theorem parse_refuses_umlauts :
    parse "#ÄÄÄ" = .error ⟨"#ÄÄÄ"⟩ ∧ ¬ IsNotation "#ÄÄÄ".toList ∧
      ∀ c : Color, ¬ c.SpelledIn SpellsChannel "#ÄÄÄ".toList := by
  have hrefused : parse "#ÄÄÄ" = .error ⟨"#ÄÄÄ"⟩ := by decide
  obtain ⟨_, herror, hnotation⟩ := parse_accepts_iff "#ÄÄÄ"
  refine ⟨hrefused, fun h => ?_, ((herror _).mp hrefused).2⟩
  obtain ⟨_, c, hc⟩ := hnotation.mp h
  simp [hrefused] at hc

/-- A plus sign stands in place of the first digit of each channel. -/
theorem parse_signed :
    parse "#+1+2+3" = .ok ⟨1, 2, 3, 255⟩ ∧ ¬ IsNotation "#+1+2+3".toList :=
  ⟨by decide, fun h => h.no_sign (by decide)⟩

end Color

end TwinScreen
