import TwinScreen.Proofs.Text.Division
import TwinScreen.Toml.Text

/-!
# What readers take

A reader takes the front of a text, gives a result and leaves the rest. Readers in sequence take one
part after the other, and a loop takes what its rounds take. Readers that stop at the first
character of another kind take exactly the front that is of their kind.
-/
namespace TwinScreen.Toml.Reader

variable {α β σ : Type}

/-- Of this text the reader makes this result, and it leaves the rest. -/
def Reads (reader : Reader α) (text : List Char) (a : α) (rest : List Char) : Prop :=
  reader text = some (a, rest)

/-- One reader goes on where another has stopped. -/
theorem Reads.bind {reader : Reader α} {next : α → Reader β} {s t u : List Char} {a : α} {b : β}
    (first : Reads reader s a t) (second : Reads (next a) t b u) :
    Reads (reader >>= next) s b u := by
  have hbind : (reader >>= next) s = (reader s).bind fun p => next p.1 p.2 := rfl
  rw [Reads, hbind, first]
  exact second

theorem reads_pure (a : α) (s : List Char) : Reads (pure a) s a s := rfl

theorem reads_get (s : List Char) : Reads (get : Reader (List Char)) s s s := rfl

theorem reads_next (c : Char) (s : List Char) : Reads next (c :: s) c s := rfl

theorem reads_peek (s : List Char) : Reads peek s s.head? s := rfl

theorem reads_expect (c : Char) (s : List Char) : Reads (expect c) (c :: s) () s := if_pos rfl

theorem reads_accept (c : Char) (s : List Char) : Reads (accept c) (c :: s) true s := if_pos rfl

theorem reads_accept_other {c : Char} {s : List Char} (h : s.head? ≠ some c) :
    Reads (accept c) s false s := by
  cases s with
  | nil => rfl
  | cons d rest => exact if_neg fun hd => h (by rw [List.head?_cons, hd])

/-- A character of a kind is no character of another kind. -/
theorem ne_of_kind {kind : Char → Bool} {c d : Char} (hc : kind c = true) (hd : kind d = false) :
    c ≠ d := by
  rintro rfl
  simp [hd] at hc

/-- What holds of the first character. -/
theorem head?_cons_of {p : Char → Prop} {c : Char} {s : List Char} (h : p c) :
    ∀ d ∈ (c :: s).head?, p d := by
  simpa using h

/-- Characters of a kind are taken up to the first of another. -/
theorem reads_takeWhile (kind : Char → Bool) (front rest : List Char)
    (hfront : ∀ c ∈ front, kind c = true) (hrest : ∀ c ∈ rest.head?, kind c = false) :
    Reads (takeWhile kind) (front ++ rest) front rest := by
  rw [Reads, takeWhile, Text.takeWhile_append_of_all kind front rest hfront hrest,
    Text.dropWhile_append_of_all kind front rest hfront hrest]

theorem reads_skipWhile_none {kind : Char → Bool} {s : List Char}
    (h : ∀ c ∈ s.head?, kind c = false) : Reads (skipWhile kind) s () s := by
  have hdrop : s.dropWhile kind = s := Text.dropWhile_append_of_all kind [] s (by simp) h
  rw [Reads, skipWhile, hdrop]

/-- A result with its place: the lengths of what follows its start and its end. -/
theorem Reads.spanned {reader : Reader α} {s t : List Char} {a : α} (h : Reads reader s a t) :
    Reads (spanned reader) s (⟨s.length, t.length⟩, a) t := by
  refine Reads.bind (a := s.length) (t := s) rfl ?_
  exact Reads.bind h rfl

/-! ## Loops -/

theorem reads_loop_done {round : σ → Reader (Round σ α)} {x : σ} {s t : List Char} {a : α}
    (h : Reads (round x) s (.done a) t) : Reads (loop round x) s a t := by
  rw [Reads] at h ⊢
  rw [loop, h]

/-- A round that took something is followed by the next one. -/
theorem reads_loop_again {round : σ → Reader (Round σ α)} {x y : σ} {s t u : List Char} {a : α}
    (h : Reads (round x) s (.again y) t) (hless : t.length < s.length)
    (hnext : Reads (loop round y) t a u) : Reads (loop round x) s a u := by
  rw [Reads] at h hnext ⊢
  rw [loop, h]
  simp only [dif_pos hless, hnext]

/-! ## Texts and line ends -/

/-- A character that a text between quotation marks shows as itself. -/
def IsVerbatim (c : Char) : Prop := c ≠ '"' ∧ c ≠ '\\' ∧ isPlain c = true

instance (c : Char) : Decidable (IsVerbatim c) := inferInstanceAs (Decidable (_ ∧ _ ∧ _))

/-- The rest of a text on one line. The round of the loop adds a character to those before. -/
theorem reads_lineText (s rest : List Char) (h : ∀ c ∈ s, IsVerbatim c) :
    Reads (lineText '"' true) (s ++ '"' :: rest) (String.ofList s) rest := by
  have hstart : String.ofList s = String.ofList (([] : List Char).reverse ++ s) := rfl
  rw [hstart, lineText]
  clear hstart
  generalize ([] : List Char) = before
  induction s generalizing before with
  | nil =>
    refine reads_loop_done (Reads.bind (reads_next '"' rest) ?_)
    rw [if_pos rfl, List.append_nil]
    exact reads_pure _ _
  | cons c s ih =>
    simp only [List.mem_cons, forall_eq_or_imp] at h
    obtain ⟨⟨hmark, hescape, hplain⟩, hs⟩ := h
    refine reads_loop_again (y := c :: before) (t := s ++ '"' :: rest) ?_ (by simp) ?_
    · refine Reads.bind (reads_next c _) ?_
      rw [if_neg hmark, if_neg (by simp [hescape]), if_pos hplain]
      exact reads_pure _ _
    · have hrest := ih hs (c :: before)
      rwa [List.reverse_cons, List.append_assoc] at hrest

/-! ## Results of a kind -/

/-- All results of a reader are of a kind. -/
def Yields (reader : Reader α) (P : α → Prop) : Prop := ∀ s a t, Reads reader s a t → P a

theorem yields_any (reader : Reader α) : Yields reader fun _ => True := fun _ _ _ _ => trivial

theorem yields_pure {P : α → Prop} {a : α} (h : P a) : Yields (pure a) P := by
  intro s b t hread
  rw [← (Prod.mk.inj (Option.some.inj hread)).1]
  exact h

theorem yields_failure (P : α → Prop) : Yields failure P := fun _ _ _ hread => nomatch hread

/-- What a reader gives out may rest on what the one before gave out. -/
theorem Yields.bind {reader : Reader α} {next : α → Reader β} {P : α → Prop} {Q : β → Prop}
    (first : Yields reader P) (second : ∀ a, P a → Yields (next a) Q) :
    Yields (reader >>= next) Q := by
  intro s b u hread
  have hbind : (reader >>= next) s = (reader s).bind fun p => next p.1 p.2 := rfl
  rw [Reads, hbind] at hread
  obtain ⟨⟨a, t⟩, ha, hb⟩ := Option.bind_eq_some_iff.mp hread
  exact second a (first s a t ha) t b u hb

theorem Yields.spanned {reader : Reader α} {P : α → Prop} (h : Yields reader P) :
    Yields (spanned reader) fun a => P a.2 :=
  (yields_any _).bind fun _ _ => h.bind fun _ ha => (yields_any _).bind fun _ _ => yields_pure ha

/-- What is kept from round to round, or holds of the result of the last one. -/
def Round.Holds (P : σ → Prop) (Q : α → Prop) : Round σ α → Prop
  | .again x => P x
  | .done a => Q a

/-- What every round keeps, the last one gives out. -/
theorem yields_loop {round : σ → Reader (Round σ α)} {P : σ → Prop} {Q : α → Prop}
    (hround : ∀ x, P x → Yields (round x) (Round.Holds P Q)) {x : σ} (hx : P x) :
    Yields (loop round x) Q := by
  intro s
  induction hlength : s.length using Nat.strong_induction_on generalizing s x with
  | _ n ih =>
    intro a t hread
    rw [Reads, loop] at hread
    split at hread
    · cases hread
    · rename_i b rest hdone
      rw [← (Prod.mk.inj (Option.some.inj hread)).1]
      exact hround x hx s _ _ hdone
    · rename_i y rest hagain
      split at hread
      · rename_i hless
        exact ih _ (hlength ▸ hless) (hround x hx s _ _ hagain) rest rfl a t hread
      · cases hread

end TwinScreen.Toml.Reader
