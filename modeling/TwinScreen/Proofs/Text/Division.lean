import Mathlib.Data.List.Chain
import Mathlib.Data.List.TakeWhile
import TwinScreen.Text.Atom

/-!
# The division of a line into atoms

What the atoms and the trailing characters of a line are, said without the loop that finds them:
leads and trailing characters are blank, texts are single wide glyphs or runs of narrow characters,
and two runs next to each other have a blank between them. A line has exactly one such division
(`atoms_eq_iff`), so parts of a division that are put together anew are found again.
-/
namespace TwinScreen.Text

/-- A single wide glyph that is not blank. -/
def IsGlyph (text : List Char) : Prop := ∃ c, text = [c] ∧ isWide c = true ∧ isBlank c = false

/-- One or more narrow characters, none of them blank. -/
def IsRun (text : List Char) : Prop := text ≠ [] ∧ ∀ c ∈ text, isNarrow c = true

def IsAtom (text : List Char) : Prop := IsGlyph text ∨ IsRun text

def AllBlank (s : List Char) : Prop := ∀ c ∈ s, isBlank c = true

/-- Two atoms may follow each other: runs need a blank between them. -/
def Apart (a b : Atom) : Prop := IsRun a.text → IsRun b.text → b.lead ≠ []

/-- The atoms and the trailing characters of some line. -/
structure IsDivision (as : List Atom) (trailing : List Char) : Prop where
  lead_blank : ∀ a ∈ as, AllBlank a.lead
  text_atom : ∀ a ∈ as, IsAtom a.text
  apart : as.IsChain Apart
  trailing_blank : AllBlank trailing

/-- Atoms and trailing characters that divide a line. -/
def Divides (as : List Atom) (trailing line : List Char) : Prop :=
  IsDivision as trailing ∧ join as trailing = line

theorem isNarrow_iff {c : Char} : isNarrow c = true ↔ isBlank c = false ∧ isWide c = false := by
  simp only [isNarrow, Bool.and_eq_true, Bool.not_eq_true']

theorem isBlank_of_isNarrow {c : Char} (h : isNarrow c = true) : isBlank c = false :=
  (isNarrow_iff.mp h).1

theorem isWide_of_isNarrow {c : Char} (h : isNarrow c = true) : isWide c = false :=
  (isNarrow_iff.mp h).2

theorem IsAtom.ne_nil {text : List Char} (h : IsAtom text) : text ≠ [] := by
  rcases h with ⟨c, rfl, _⟩ | hrun
  · simp
  · exact hrun.1

theorem IsAtom.not_blank {text : List Char} (h : IsAtom text) : ∀ c ∈ text, isBlank c = false := by
  rcases h with ⟨d, rfl, _, hd⟩ | ⟨_, hrun⟩
  · simpa using hd
  · exact fun c hc => isBlank_of_isNarrow (hrun c hc)

/-! ## Parts of a division -/

/-- Behind its first atom, a divided line is divided. -/
theorem IsDivision.tail {a : Atom} {more : List Atom} {trailing : List Char}
    (h : IsDivision (a :: more) trailing) : IsDivision more trailing where
  lead_blank b hb := h.lead_blank b (List.mem_cons_of_mem a hb)
  text_atom b hb := h.text_atom b (List.mem_cons_of_mem a hb)
  apart := h.apart.tail
  trailing_blank := h.trailing_blank

/-- An atom may come in front of a divided line if the two keep apart. -/
theorem IsDivision.cons {a : Atom} {more : List Atom} {trailing : List Char}
    (hlead : AllBlank a.lead) (htext : IsAtom a.text) (hapart : ∀ b ∈ more.head?, Apart a b)
    (h : IsDivision more trailing) : IsDivision (a :: more) trailing where
  lead_blank := by simpa using ⟨hlead, h.lead_blank⟩
  text_atom := by simpa using ⟨htext, h.text_atom⟩
  apart := by
    cases more with
    | nil => exact List.isChain_singleton a
    | cons b rest => exact List.isChain_cons_cons.mpr ⟨hapart b (by simp), h.apart⟩
  trailing_blank := h.trailing_blank

/-- Without the lead of its first atom, which then starts a line, a division stays one. -/
theorem IsDivision.dropLead {a : Atom} {more : List Atom} {trailing : List Char}
    (h : IsDivision (a :: more) trailing) : IsDivision (⟨[], a.text⟩ :: more) trailing := by
  refine IsDivision.cons (by simp [AllBlank]) (h.text_atom a (by simp)) ?_ h.tail
  intro b hb
  obtain ⟨rest, rfl⟩ := List.head?_eq_some_iff.mp hb
  exact (List.isChain_cons_cons.mp h.apart).1

/-! ## Finding the atoms -/

theorem takeWhile_append_of_all (p : Char → Bool) (s t : List Char) (hs : ∀ c ∈ s, p c = true)
    (ht : ∀ c ∈ t.head?, p c = false) : (s ++ t).takeWhile p = s := by
  rw [List.takeWhile_append_of_pos hs]
  cases t with
  | nil => simp
  | cons c rest => simp [ht c (by simp)]

theorem dropWhile_append_of_all (p : Char → Bool) (s t : List Char) (hs : ∀ c ∈ s, p c = true)
    (ht : ∀ c ∈ t.head?, p c = false) : (s ++ t).dropWhile p = t := by
  rw [List.dropWhile_append_of_pos hs]
  cases t with
  | nil => simp
  | cons c rest => simp [ht c (by simp)]

theorem atoms_of_blank (s : List Char) (h : AllBlank s) : atoms s = ([], s) := by
  unfold atoms
  split
  · rfl
  · rename_i c rest hd
    rw [List.dropWhile_eq_nil_iff.mpr h] at hd
    cases hd

/-- A wide glyph is an atom, whatever follows it. -/
theorem atoms_glyph (lead rest : List Char) (c : Char) (hlead : AllBlank lead)
    (hwide : isWide c = true) (hc : isBlank c = false) :
    atoms (lead ++ c :: rest) = (⟨lead, [c]⟩ :: (atoms rest).1, (atoms rest).2) := by
  have hstop : ∀ d ∈ (c :: rest).head?, isBlank d = false := by simpa using hc
  have hdrop := dropWhile_append_of_all isBlank lead (c :: rest) hlead hstop
  have htake := takeWhile_append_of_all isBlank lead (c :: rest) hlead hstop
  rw [atoms]
  split
  · rename_i hd
    rw [hdrop] at hd
    cases hd
  · rename_i d more hd
    rw [hdrop] at hd
    obtain ⟨rfl, rfl⟩ := List.cons.inj hd
    simp only [htake, hwide, if_true]

/-- Narrow characters up to one that is not narrow are an atom. -/
theorem atoms_run (lead text rest : List Char) (hlead : AllBlank lead) (htext : IsRun text)
    (hrest : ∀ c ∈ rest.head?, isNarrow c = false) :
    atoms (lead ++ text ++ rest) = (⟨lead, text⟩ :: (atoms rest).1, (atoms rest).2) := by
  obtain ⟨hne, hrun⟩ := htext
  obtain ⟨c, run, rfl⟩ := List.exists_cons_of_ne_nil hne
  simp only [List.mem_cons, forall_eq_or_imp] at hrun
  have hstop : ∀ d ∈ (c :: (run ++ rest)).head?, isBlank d = false := by
    simpa using isBlank_of_isNarrow hrun.1
  have hdrop := dropWhile_append_of_all isBlank lead (c :: (run ++ rest)) hlead hstop
  have htake := takeWhile_append_of_all isBlank lead (c :: (run ++ rest)) hlead hstop
  have hnarrow : isWide c = false := isWide_of_isNarrow hrun.1
  rw [List.append_assoc, List.cons_append, atoms]
  split
  · rename_i hd
    rw [hdrop] at hd
    cases hd
  · rename_i d more hd
    rw [hdrop] at hd
    obtain ⟨rfl, rfl⟩ := List.cons.inj hd
    simp only [htake, hnarrow, Bool.false_eq_true, if_false,
      takeWhile_append_of_all isNarrow run rest hrun.2 hrest,
      dropWhile_append_of_all isNarrow run rest hrun.2 hrest]

/-- The atoms of a line and its trailing characters are a division. -/
theorem isDivision_atoms (line : List Char) : IsDivision (atoms line).1 (atoms line).2 := by
  fun_induction atoms line with
  | case1 line hd =>
    have hblank := List.dropWhile_eq_nil_iff.mp hd
    exact ⟨by simp, by simp, List.isChain_nil, hblank⟩
  | case2 line c rest hd lead hwide more trailing heq ih =>
    have hc : isBlank c = false := by
      have h := List.head?_dropWhile_not isBlank line
      simpa [hd] using h
    rw [heq] at ih
    refine IsDivision.cons (fun d hm => List.mem_takeWhile_imp hm) (.inl ⟨c, rfl, hwide, hc⟩) ?_ ih
    intro b _ hrun
    have hnarrow := hrun.2 c (by simp)
    simp [isNarrow, hwide] at hnarrow
  | case3 line c rest hd lead hwide more trailing heq ih =>
    have hc : isBlank c = false := by
      have h := List.head?_dropWhile_not isBlank line
      simpa [hd] using h
    have hrun : IsRun (c :: rest.takeWhile isNarrow) := by
      refine ⟨by simp, ?_⟩
      simp only [List.mem_cons, forall_eq_or_imp]
      exact ⟨by simp [isNarrow, hc, hwide], fun d hm => List.mem_takeWhile_imp hm⟩
    rw [heq] at ih
    refine IsDivision.cons (fun d hm => List.mem_takeWhile_imp hm) (.inr hrun) ?_ ih
    -- The next atom starts where the run stopped, so without a lead it is no run.
    intro b hb _ hnext hlead
    obtain ⟨others, rfl⟩ := List.head?_eq_some_iff.mp hb
    obtain ⟨d, run, htext⟩ := List.exists_cons_of_ne_nil hnext.1
    have hjoin := join_atoms (rest.dropWhile isNarrow)
    have hstop := List.head?_dropWhile_not isNarrow rest
    rw [heq] at hjoin
    rw [← hjoin] at hstop
    have hd := hnext.2 d (by simp [htext])
    simp [join, hlead, htext, hd] at hstop

/-- Where a run ends in a division, no narrow character follows. -/
theorem not_narrow_of_apart {a : Atom} {more : List Atom} {trailing : List Char}
    (h : IsDivision (a :: more) trailing) (hrun : IsRun a.text) :
    ∀ c ∈ (join more trailing).head?, isNarrow c = false := by
  intro c hc
  have blank_not_narrow : ∀ d, isBlank d = true → isNarrow d = false := by
    intro d hd
    simp [isNarrow, hd]
  cases more with
  | nil =>
    exact blank_not_narrow c (h.trailing_blank c (List.mem_of_mem_head? hc))
  | cons b others =>
    have hapart := (List.isChain_cons_cons.mp h.apart).1 hrun
    have hlead := h.lead_blank b (by simp)
    cases hl : b.lead with
    | cons d lead =>
      simp only [join, hl, List.cons_append, List.head?_cons, Option.mem_some_iff] at hc
      subst hc
      exact blank_not_narrow d (hlead d (by simp [hl]))
    | nil =>
      rcases h.text_atom b (by simp) with ⟨d, htext, hwide, _⟩ | hnext
      · simp only [join, hl, htext, List.nil_append, List.cons_append, List.head?_cons,
          Option.mem_some_iff] at hc
        subst hc
        simp [isNarrow, hwide]
      · exact absurd hl (hapart hnext)

/-- The parts of a division are found again in the line they make. -/
theorem atoms_join (as : List Atom) (trailing : List Char) (h : IsDivision as trailing) :
    atoms (join as trailing) = (as, trailing) := by
  induction as with
  | nil => exact atoms_of_blank trailing h.trailing_blank
  | cons a more ih =>
    have hlead := h.lead_blank a (by simp)
    have hrest := ih h.tail
    rcases h.text_atom a (by simp) with ⟨c, htext, hwide, hc⟩ | hrun
    · have hjoin : join (a :: more) trailing = a.lead ++ c :: join more trailing := by
        simp [join, htext]
      rw [hjoin, atoms_glyph a.lead _ c hlead hwide hc, hrest, ← htext]
    · rw [join, atoms_run a.lead a.text _ hlead hrun (not_narrow_of_apart h hrun), hrest]

/-- A line has one division: the one that `atoms` finds. -/
theorem atoms_eq_iff (line : List Char) (as : List Atom) (trailing : List Char) :
    atoms line = (as, trailing) ↔ Divides as trailing line := by
  constructor
  · intro h
    have hdiv := isDivision_atoms line
    have hjoin := join_atoms line
    rw [h] at hdiv hjoin
    exact ⟨hdiv, hjoin⟩
  · rintro ⟨hdiv, rfl⟩
    exact atoms_join as trailing hdiv

end TwinScreen.Text
