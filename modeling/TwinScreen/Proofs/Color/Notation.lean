import TwinScreen.Color.Notation
import TwinScreen.Proofs.Text.Division

/-!
# Written colors are read back

A color has many spellings: its digits may be of either case, an alpha of 255 may be left out, and
blank characters may stand around it. A text is read as a color exactly if it spells the color,
where a channel below 16 may also be spelled by a plus sign and one digit (`parse_eq_ok_iff`). The
written form of a color is one of its spellings, so it is read back (`parse_print`), and writing
what was read of a text brings the text into a form that stays (`parse_spellings`).
-/
namespace TwinScreen.Hexadecimal

/-! ## Digits -/

/-- The character is a digit for the value, in either case. -/
def IsDigitOf (n : Nat) (c : Char) : Prop := c = upper n ∨ c = lower n

/-- A value below 16 has an upper-case digit and a lower-case one, and no other character has it. -/
theorem value?_eq_some_iff {c : Char} {n : Nat} : value? c = some n ↔ n < 16 ∧ IsDigitOf n c := by
  constructor
  · intro h
    have hback (m : Nat) (hm : m = c.toNat) : Char.ofNat m = c := by rw [hm, Char.ofNat_toNat]
    simp only [value?] at h
    split at h
    · obtain rfl := Option.some.inj h
      refine ⟨by omega, .inl ?_⟩
      rw [upper, if_pos (by omega), hback _ (by omega)]
    · split at h
      · obtain rfl := Option.some.inj h
        refine ⟨by omega, .inl ?_⟩
        rw [upper, if_neg (by omega), hback _ (by omega)]
      · split at h
        · obtain rfl := Option.some.inj h
          refine ⟨by omega, .inr ?_⟩
          rw [lower, if_neg (by omega), hback _ (by omega)]
        · cases h
  · rintro ⟨hn, rfl | rfl⟩
    · exact value?_upper hn
    · exact value?_lower hn

theorem toNat_range_of_value? {c : Char} {n : Nat} (h : value? c = some n) :
    33 ≤ c.toNat ∧ c.toNat ≤ 126 := by
  simp only [value?] at h
  split at h
  · omega
  · split at h
    · omega
    · split at h
      · omega
      · cases h

/-! ## Bytes -/

/-- The characters are the two digits of the byte, each in either case. -/
def SpellsByte (b : UInt8) (high low : Char) : Prop :=
  IsDigitOf (b.toNat / 16) high ∧ IsDigitOf (b.toNat % 16) low

theorem spellsByte_upper (b : UInt8) :
    SpellsByte b (upper (b.toNat / 16)) (upper (b.toNat % 16)) :=
  ⟨.inl rfl, .inl rfl⟩

/-- The two digits of a byte are those of its quotient and its remainder by 16. -/
theorem spellsByte_iff {b : UInt8} {high low : Char} :
    SpellsByte b high low ↔
      value? high = some (b.toNat / 16) ∧ value? low = some (b.toNat % 16) := by
  have hbyte := b.toNat_lt
  rw [value?_eq_some_iff, value?_eq_some_iff]
  constructor
  · rintro ⟨hhigh, hlow⟩
    exact ⟨⟨by omega, hhigh⟩, Nat.mod_lt _ (by decide), hlow⟩
  · rintro ⟨⟨_, hhigh⟩, _, hlow⟩
    exact ⟨hhigh, hlow⟩

/-- Two digits are those of one byte. -/
theorem spellsByte_of_values {high low : Char} {m n : Nat} (hhigh : value? high = some m)
    (hlow : value? low = some n) : SpellsByte (UInt8.ofNat (16 * m + n)) high low := by
  have hm := (value?_eq_some_iff.mp hhigh).1
  have hn := (value?_eq_some_iff.mp hlow).1
  have hsum : (UInt8.ofNat (16 * m + n)).toNat = 16 * m + n :=
    UInt8.toNat_ofNat_of_lt' (Nat.lt_of_lt_of_eq (by omega : 16 * m + n < 256) rfl)
  rw [spellsByte_iff, hsum, show (16 * m + n) / 16 = m by omega,
    show (16 * m + n) % 16 = n by omega]
  exact ⟨hhigh, hlow⟩

end TwinScreen.Hexadecimal

namespace TwinScreen.Text

/-! ## Texts between blank characters -/

theorem isBlank_of_range {c : Char} (h : 33 ≤ c.toNat ∧ c.toNat ≤ 126) : isBlank c = false := by
  simp only [isBlank, Bool.or_eq_false_iff, Bool.and_eq_false_iff, beq_eq_false_iff_ne,
    decide_eq_false_iff_not]
  omega

/-- A text without blank characters is found again between blank ones. -/
theorem trim_padded {before rest after : List Char} {c : Char} (hbefore : AllBlank before)
    (hafter : AllBlank after) (htext : ∀ d ∈ c :: rest, isBlank d = false) :
    trim (before ++ c :: rest ++ after) = c :: rest := by
  have hleft : (before ++ c :: rest ++ after).dropWhile isBlank = c :: rest ++ after := by
    rw [List.append_assoc]
    exact dropWhile_append_of_all isBlank before _ hbefore (by simpa using htext c (by simp))
  have hright : (after.reverse ++ (c :: rest).reverse).dropWhile isBlank = (c :: rest).reverse := by
    refine dropWhile_append_of_all isBlank _ _ (fun d hd => hafter d (List.mem_reverse.mp hd)) ?_
    exact fun d hd => htext d (List.mem_reverse.mp (List.mem_of_mem_head? hd))
  rw [trim, hleft, List.reverse_append, hright, List.reverse_reverse]

/-- What trimming takes away is blank. -/
theorem exists_padding (s : List Char) :
    ∃ before after, AllBlank before ∧ AllBlank after ∧ s = before ++ trim s ++ after := by
  refine ⟨s.takeWhile isBlank, ((s.dropWhile isBlank).reverse.takeWhile isBlank).reverse,
    fun c hc => List.mem_takeWhile_imp hc,
    fun c hc => List.mem_takeWhile_imp (List.mem_reverse.mp hc), ?_⟩
  rw [trim, List.append_assoc, ← List.reverse_append, List.takeWhile_append_dropWhile,
    List.reverse_reverse, List.takeWhile_append_dropWhile]

end TwinScreen.Text

namespace TwinScreen.Color

open Hexadecimal

/-! ## Channels -/

/-- The characters are the two digits of the channel, or a plus sign and its only digit. -/
def SpellsChannel (b : UInt8) (high low : Char) : Prop :=
  SpellsByte b high low ∨ high = '+' ∧ b.toNat < 16 ∧ IsDigitOf b.toNat low

theorem not_spellsByte_sign {b : UInt8} {low : Char} : ¬ SpellsByte b '+' low := by
  rw [spellsByte_iff]
  rintro ⟨hhigh, _⟩
  cases hhigh

/-- A channel is read from two characters just when they spell it. -/
theorem channel?_eq_some_iff {high low : Char} {b : UInt8} :
    channel? high low = some b ↔ SpellsChannel b high low := by
  unfold channel? SpellsChannel
  split
  · rename_i hsign
    rw [hsign, or_iff_right not_spellsByte_sign, ← value?_eq_some_iff]
    simp only [Option.map_eq_some_iff, true_and]
    constructor
    · rintro ⟨n, hlow, rfl⟩
      have hn : n < 256 := Nat.lt_trans (value?_eq_some_iff.mp hlow).1 (by decide)
      rwa [UInt8.toNat_ofNat_of_lt' hn]
    · intro hlow
      exact ⟨_, hlow, UInt8.ofNat_toNat⟩
  · rename_i hsign
    rw [or_iff_left (fun h => hsign h.1)]
    simp only [Option.bind_eq_bind, Option.bind_eq_some_iff, Option.pure_def, Option.some_inj]
    constructor
    · rintro ⟨m, hhigh, n, hlow, rfl⟩
      exact spellsByte_of_values hhigh hlow
    · intro h
      obtain ⟨hhigh, hlow⟩ := spellsByte_iff.mp h
      refine ⟨_, hhigh, _, hlow, ?_⟩
      rw [Nat.div_add_mod, UInt8.ofNat_toNat]

theorem SpellsChannel.not_blank {b : UInt8} {high low : Char} (h : SpellsChannel b high low) :
    Text.isBlank high = false ∧ Text.isBlank low = false := by
  rcases h with hbyte | ⟨rfl, hb, hlow⟩
  · obtain ⟨hhigh, hlow⟩ := spellsByte_iff.mp hbyte
    exact ⟨Text.isBlank_of_range (toNat_range_of_value? hhigh),
      Text.isBlank_of_range (toNat_range_of_value? hlow)⟩
  · have hvalue := value?_eq_some_iff.mpr ⟨hb, hlow⟩
    exact ⟨rfl, Text.isBlank_of_range (toNat_range_of_value? hvalue)⟩

/-! ## The written form -/

theorem mem_upperByte {b : UInt8} {d : Char} (h : d ∈ upperByte b) : ∃ n, n < 16 ∧ d = upper n := by
  have hbyte := b.toNat_lt
  simp only [upperByte, List.mem_cons, List.not_mem_nil, or_false] at h
  rcases h with rfl | rfl
  · exact ⟨b.toNat / 16, by omega, rfl⟩
  · exact ⟨b.toNat % 16, Nat.mod_lt _ (by decide), rfl⟩

/-- The characters of a written color are a number sign and upper-case digits. -/
theorem mem_written {c : Color} {d : Char} (h : d ∈ c.written) :
    d = '#' ∨ ∃ n, n < 16 ∧ d = upper n := by
  simp only [written, List.cons_append, List.mem_cons, List.mem_append] at h
  rcases h with hsign | ((hred | hgreen) | hblue) | halpha
  · exact .inl hsign
  · exact .inr (mem_upperByte hred)
  · exact .inr (mem_upperByte hgreen)
  · exact .inr (mem_upperByte hblue)
  · split at halpha
    · simp at halpha
    · exact .inr (mem_upperByte halpha)

/-! ## Spellings -/

/-- A number sign and characters that spell the channels in the given way. An alpha of 255 may be
left out. -/
inductive WrittenIn (P : UInt8 → Char → Char → Prop) (c : Color) : List Char → Prop where
  | short {r₁ r₂ g₁ g₂ b₁ b₂ : Char} (red : P c.red r₁ r₂) (green : P c.green g₁ g₂)
      (blue : P c.blue b₁ b₂) (alpha : c.alpha = 255) :
      WrittenIn P c ['#', r₁, r₂, g₁, g₂, b₁, b₂]
  | full {r₁ r₂ g₁ g₂ b₁ b₂ a₁ a₂ : Char} (red : P c.red r₁ r₂) (green : P c.green g₁ g₂)
      (blue : P c.blue b₁ b₂) (alpha : P c.alpha a₁ a₂) :
      WrittenIn P c ['#', r₁, r₂, g₁, g₂, b₁, b₂, a₁, a₂]

/-- Such characters between blank ones. -/
def SpelledIn (P : UInt8 → Char → Char → Prop) (c : Color) (s : List Char) : Prop :=
  ∃ before text after, s = before ++ text ++ after ∧ Text.AllBlank before ∧
    Text.AllBlank after ∧ c.WrittenIn P text

variable {P Q : UInt8 → Char → Char → Prop} {c : Color} {s : List Char}

theorem WrittenIn.mono (hPQ : ∀ b high low, P b high low → Q b high low) (h : c.WrittenIn P s) :
    c.WrittenIn Q s := by
  cases h with
  | short red green blue alpha =>
    exact .short (hPQ _ _ _ red) (hPQ _ _ _ green) (hPQ _ _ _ blue) alpha
  | full red green blue alpha =>
    exact .full (hPQ _ _ _ red) (hPQ _ _ _ green) (hPQ _ _ _ blue) (hPQ _ _ _ alpha)

/-- The written form is a spelling with two digits for each channel. -/
theorem written_writtenIn (c : Color) : c.WrittenIn SpellsByte c.written := by
  unfold written upperByte
  split
  · rename_i halpha
    exact .short (spellsByte_upper _) (spellsByte_upper _) (spellsByte_upper _) halpha
  · exact .full (spellsByte_upper _) (spellsByte_upper _) (spellsByte_upper _) (spellsByte_upper _)

/-- Between blank characters, a color is read just when its channels are spelled. -/
theorem ofWritten?_eq_some_iff :
    ofWritten? s = some c ↔ c.WrittenIn SpellsChannel (Text.trim s) := by
  unfold ofWritten?
  generalize Text.trim s = text
  constructor
  · intro h
    split at h
    · simp only [Option.bind_eq_bind, Option.bind_eq_some_iff, Option.pure_def, Option.some_inj,
        channel?_eq_some_iff] at h
      obtain ⟨red, hred, green, hgreen, blue, hblue, rfl⟩ := h
      exact .short hred hgreen hblue rfl
    · simp only [Option.bind_eq_bind, Option.bind_eq_some_iff, Option.pure_def, Option.some_inj,
        channel?_eq_some_iff] at h
      obtain ⟨red, hred, green, hgreen, blue, hblue, alpha, halpha, rfl⟩ := h
      exact .full hred hgreen hblue halpha
    · cases h
  · intro h
    cases h with
    | short red green blue alpha =>
      simp [channel?_eq_some_iff.mpr red, channel?_eq_some_iff.mpr green,
        channel?_eq_some_iff.mpr blue, ← alpha]
    | full red green blue alpha =>
      simp [channel?_eq_some_iff.mpr red, channel?_eq_some_iff.mpr green,
        channel?_eq_some_iff.mpr blue, channel?_eq_some_iff.mpr alpha]

/-- Blank characters around a color are taken off, and nothing else is. -/
theorem WrittenIn.trim_padded {before text after : List Char} (hbefore : Text.AllBlank before)
    (hafter : Text.AllBlank after) (h : c.WrittenIn SpellsChannel text) :
    Text.trim (before ++ text ++ after) = text := by
  have hsign : Text.isBlank '#' = false := rfl
  cases h with
  | short red green blue _ =>
    refine Text.trim_padded hbefore hafter ?_
    simp [hsign, red.not_blank, green.not_blank, blue.not_blank]
  | full red green blue alpha =>
    refine Text.trim_padded hbefore hafter ?_
    simp [hsign, red.not_blank, green.not_blank, blue.not_blank, alpha.not_blank]

/-- A text is read as a color exactly if it is one of the color's spellings. -/
theorem parse_eq_ok_iff {text : String} :
    parse text = .ok c ↔ c.SpelledIn SpellsChannel text.toList := by
  have hread : parse text = .ok c ↔ ofWritten? text.toList = some c := by
    unfold parse
    cases ofWritten? text.toList <;> simp
  rw [hread, ofWritten?_eq_some_iff]
  constructor
  · intro h
    obtain ⟨before, after, hbefore, hafter, hpadded⟩ := Text.exists_padding text.toList
    exact ⟨before, _, after, hpadded, hbefore, hafter, h⟩
  · rintro ⟨before, written, after, heq, hbefore, hafter, h⟩
    rwa [heq, h.trim_padded hbefore hafter]

theorem parse_of_spelledIn {text : String} (h : c.SpelledIn SpellsByte text.toList) :
    parse text = .ok c := by
  obtain ⟨before, written, after, heq, hbefore, hafter, hwritten⟩ := h
  exact parse_eq_ok_iff.mpr
    ⟨before, written, after, heq, hbefore, hafter, hwritten.mono fun _ _ _ => .inl⟩

theorem WrittenIn.spelledIn (h : c.WrittenIn P s) : c.SpelledIn P s :=
  ⟨[], s, [], by simp, by simp [Text.AllBlank], by simp [Text.AllBlank], h⟩

/-- A printed color is read again. -/
theorem parse_print (c : Color) : parse c.print = .ok c := by
  refine parse_of_spelledIn (WrittenIn.spelledIn ?_)
  rw [print, String.toList_ofList]
  exact c.written_writtenIn

/-- The written form of a color and all its other spellings are read as the color. So what was read
of a text has a form that is read as the same color and that stays when it is read and written
again. -/
theorem parse_spellings (c : Color) :
    parse c.print = .ok c ∧
      (∀ text : String, c.SpelledIn SpellsByte text.toList → parse text = .ok c) ∧
      ∀ text s : String, (parse text).map print = .ok s →
        parse s = parse text ∧ (parse s).map print = .ok s := by
  refine ⟨c.parse_print, fun _ => parse_of_spelledIn, fun text s h => ?_⟩
  cases hread : parse text with
  | error e => simp [hread, Except.map] at h
  | ok d =>
    obtain rfl : d.print = s := by simpa [hread, Except.map] using h
    simp [d.parse_print, Except.map]

/-- An ideographic space, digits of both cases, an alpha of 255, and a line feed. -/
theorem parse_spellings_padded :
    (⟨0xFA, 0xB7, 0xBC, 255⟩ : Color).SpelledIn SpellsByte "\u3000#fAb7BcfF\n".toList ∧
      parse "\u3000#fAb7BcfF\n" = .ok ⟨0xFA, 0xB7, 0xBC, 255⟩ ∧
      print ⟨0xFA, 0xB7, 0xBC, 255⟩ = "#FAB7BC" := by
  have hspelled : (⟨0xFA, 0xB7, 0xBC, 255⟩ : Color).SpelledIn SpellsByte
      "\u3000#fAb7BcfF\n".toList :=
    ⟨['\u3000'], ['#', 'f', 'A', 'b', '7', 'B', 'c', 'f', 'F'], ['\n'], by decide,
      by simp [Text.AllBlank, Text.isBlank], by simp [Text.AllBlank, Text.isBlank],
      .full ⟨.inr rfl, .inl rfl⟩ ⟨.inr rfl, .inl rfl⟩ ⟨.inl rfl, .inr rfl⟩ ⟨.inr rfl, .inl rfl⟩⟩
  exact ⟨hspelled, (parse_spellings _).2.1 _ hspelled, by decide⟩

end TwinScreen.Color
