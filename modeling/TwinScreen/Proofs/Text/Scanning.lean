import TwinScreen.Proofs.Text.Room

/-!
# Scanning a line by byte positions

The atoms of a line are cut out of its characters. Here they are found as they stand in memory: a
scan goes over the line by byte positions, looks for the next character that is not blank and for
the end of the atom that it starts, and takes slices. A position inside of a character is a fault,
and so is a sum of positions that is no size. No line that can be in memory leads to either: after
one round for each atom and a last one the scan has what `atoms` finds, which is the one division
of the line (`scan_division`).
-/
namespace TwinScreen.Text

/-! ## Slices between byte positions -/

/-- What stands in front of a byte position and what stands behind it. The position must lie between
two characters, or at an end. -/
def cutAt : List Char → Nat → Except Fault (List Char × List Char)
  | s, 0 => .ok ([], s)
  | [], _ + 1 => .error .outOfRange
  | c :: rest, n + 1 =>
      if c.utf8Size ≤ n + 1 then
        (cutAt rest (n + 1 - c.utf8Size)).map fun (front, behind) => (c :: front, behind)
      else .error .outOfRange

/-- A text is cut at a byte position just where two parts of it meet. -/
theorem cutAt_eq_ok {s front behind : List Char} {n : Nat} :
    cutAt s n = .ok (front, behind) ↔ s = front ++ behind ∧ utf8Length front = n := by
  constructor
  · intro h
    fun_induction cutAt s n generalizing front behind with
    | case1 s =>
      cases h
      exact ⟨rfl, rfl⟩
    | case2 => cases h
    | case3 c rest n hfits ih =>
      obtain ⟨⟨front', behind'⟩, hrest, heq⟩ := except_map_eq_ok.mp h
      obtain ⟨rfl, rfl⟩ := Prod.mk.inj heq
      obtain ⟨rfl, hlength⟩ := ih hrest
      refine ⟨rfl, ?_⟩
      rw [utf8Length, hlength]
      omega
    | case4 => cases h
  · rintro ⟨rfl, rfl⟩
    induction front with
    | nil => rw [utf8Length, cutAt, List.nil_append]
    | cons c front ih =>
      have hc := c.utf8Size_pos
      obtain ⟨n, hn⟩ : ∃ n, c.utf8Size + utf8Length front = n + 1 :=
        Nat.exists_eq_add_one_of_ne_zero (by omega)
      rw [utf8Length, hn, List.cons_append, cutAt, if_pos (by omega), ← hn,
        Nat.add_sub_cancel_left, ih]
      rfl

/-- The middle of a character is no position of a text. -/
example : cutAt "aé".toList 2 = .error .outOfRange := by decide

/-- The characters between two byte positions. -/
def slice (s : List Char) (start stop : Nat) : Except Fault (List Char) := do
  if start ≤ stop then
    let (_, behind) ← cutAt s start
    let (inside, _) ← cutAt behind (stop - start)
    return inside
  else throw .outOfRange

/-- The position behind the first characters of a text is the length of those characters. -/
theorem slice_eq {s before inside after : List Char} (h : s = before ++ inside ++ after) :
    slice s (utf8Length before) (utf8Length (before ++ inside)) = .ok inside := by
  have hbefore : cutAt s (utf8Length before) = .ok (before, inside ++ after) :=
    cutAt_eq_ok.mpr ⟨by rw [h, List.append_assoc], rfl⟩
  have hinside : cutAt (inside ++ after) (utf8Length inside) = .ok (inside, after) :=
    cutAt_eq_ok.mpr ⟨rfl, rfl⟩
  rw [slice, utf8Length_append, if_pos (Nat.le_add_right ..), hbefore, except_ok_bind]
  dsimp only
  rw [Nat.add_sub_cancel_left, hinside]
  rfl

theorem slice_end_eq {s before behind : List Char} (h : s = before ++ behind) :
    slice s (utf8Length before) (utf8Length s) = .ok behind := by
  rw [h]
  exact slice_eq (by rw [List.append_nil])

/-! ## Searches -/

/-- How many bytes stand in front of the first character with a property. -/
def distance? (p : Char → Bool) : List Char → Option Nat
  | [] => none
  | c :: rest => if p c then some 0 else (distance? p rest).map (c.utf8Size + ·)

theorem distance?_append {p : Char → Bool} {skipped : List Char}
    (hskipped : ∀ c ∈ skipped, p c = false) (rest : List Char) :
    distance? p (skipped ++ rest) = (distance? p rest).map (utf8Length skipped + ·) := by
  induction skipped with
  | nil => simp [utf8Length]
  | cons c skipped ih =>
    simp only [List.mem_cons, forall_eq_or_imp] at hskipped
    rw [List.cons_append, distance?, if_neg (by simp [hskipped.1]), ih hskipped.2, Option.map_map]
    simp [utf8Length, Function.comp_def, Nat.add_assoc]

/-- The position of the first character with a property from a position on, or the end. -/
def seek (p : Char → Bool) (s : List Char) (start : Nat) : Except Fault Nat := do
  match distance? p (← slice s start (utf8Length s)) with
  | some distance => Size.add start distance
  | none => return utf8Length s

/-- Seeking stops in front of the first character with the property. -/
theorem seek_eq {p : Char → Bool} {s before skipped rest : List Char}
    (hsize : utf8Length s < Size.bound) (h : s = before ++ skipped ++ rest)
    (hskipped : ∀ c ∈ skipped, p c = false) (hrest : ∀ c ∈ rest.head?, p c = true) :
    seek p s (utf8Length before) = .ok (utf8Length (before ++ skipped)) := by
  have hlength : utf8Length s = utf8Length (before ++ skipped) + utf8Length rest := by
    rw [h, utf8Length_append]
  rw [seek, slice_end_eq (h.trans (List.append_assoc ..)), except_ok_bind,
    distance?_append hskipped]
  cases rest with
  | nil =>
    rw [hlength]
    rfl
  | cons c rest =>
    have hc : p c = true := hrest c (by simp)
    rw [distance?, if_pos hc, Option.map_some, Nat.add_zero, utf8Length_append]
    rw [utf8Length_append] at hlength
    exact Size.add_of_lt (by omega)

/-! ## Scans -/

/-- How far a line has been scanned: the position behind the last atom, and the atoms so far. -/
structure Scan where
  position : Nat
  found : List Atom

/-- What becomes of a scan in one round. -/
inductive Round where
  | again (next : Scan)
  | finished (found : List Atom) (trailing : List Char)

/-- The end of an atom that starts at a position with this character. -/
def atomEnd (line : List Char) (start : Nat) (first : Char) : Except Fault Nat :=
  if isWide first then Size.add start first.utf8Size
  else seek (fun c => isBlank c || isWide c) line start

/-- One round of a scan: the next atom and the blank characters in front of it, or the end. -/
def Scan.round (line : List Char) (s : Scan) : Except Fault Round := do
  if s.position < utf8Length line then
    let start ← seek (fun c => !isBlank c) line s.position
    match ← slice line start (utf8Length line) with
    | [] => return .finished s.found (← slice line s.position (utf8Length line))
    | first :: _ =>
        let stop ← atomEnd line start first
        let lead ← slice line s.position start
        let text ← slice line start stop
        return .again ⟨stop, s.found ++ [⟨lead, text⟩]⟩
  else return .finished s.found []

/-- The atoms and the trailing characters, if they are found within so many rounds. -/
def Scan.run (line : List Char) : Nat → Scan → Except Fault (Option (List Atom × List Char))
  | 0, _ => return none
  | rounds + 1, s => do
      match ← s.round line with
      | .again next => Scan.run line rounds next
      | .finished found trailing => return some (found, trailing)

/-! ## One round -/

/-- What ends a run is what no run contains. -/
theorem not_isNarrow (c : Char) : (!isNarrow c) = (isBlank c || isWide c) := by
  simp [isNarrow]

/-- The end of an atom is found where the division has it. -/
theorem atomEnd_eq {line before rest more : List Char} {first : Char}
    (hsize : utf8Length line < Size.bound) (h : line = before ++ (first :: more) ++ rest)
    (hatom : IsAtom (first :: more))
    (hstop : IsRun (first :: more) → ∀ c ∈ rest.head?, isNarrow c = false) :
    atomEnd line (utf8Length before) first = .ok (utf8Length (before ++ first :: more)) := by
  rcases hatom with ⟨c, htext, hwide, _⟩ | hrun
  · obtain ⟨rfl, rfl⟩ := List.cons.inj htext
    have hend : utf8Length (before ++ [first]) = utf8Length before + first.utf8Size := by
      rw [utf8Length_append, utf8Length, utf8Length, Nat.add_zero]
    rw [h, utf8Length_append, hend] at hsize
    rw [atomEnd, if_pos hwide, hend]
    exact Size.add_of_lt (by omega)
  · have hnarrow : isWide first = false := isWide_of_isNarrow (hrun.2 first (by simp))
    rw [atomEnd, if_neg (by simp [hnarrow])]
    apply seek_eq hsize h
    · intro c hc
      rw [← not_isNarrow, hrun.2 c hc, Bool.not_true]
    · intro c hc
      rw [← not_isNarrow, hstop hrun c hc, Bool.not_false]

/-- When only blank characters are left, or none, they are the trailing characters. -/
theorem round_of_blank {line before trailing : List Char} (hsize : utf8Length line < Size.bound)
    (h : line = before ++ trailing) (hblank : AllBlank trailing) (found : List Atom) :
    Scan.round line ⟨utf8Length before, found⟩ = .ok (.finished found trailing) := by
  have hlength : utf8Length line = utf8Length before + utf8Length trailing := by
    rw [h, utf8Length_append]
  by_cases hempty : trailing = []
  · subst hempty
    rw [Scan.round, if_neg (by rw [hlength]; exact Nat.lt_irrefl _)]
    rfl
  · -- The search for an atom runs to the end of the line, where no character is left.
    have hpositive := utf8Length_pos hempty
    have hline : line = before ++ trailing ++ [] := h.trans (List.append_nil _).symm
    have hstart : seek (fun c => !isBlank c) line (utf8Length before) =
        .ok (utf8Length (before ++ trailing)) :=
      seek_eq hsize hline (by simpa [AllBlank] using hblank) (by simp)
    have hnone : slice line (utf8Length (before ++ trailing)) (utf8Length line) = .ok [] :=
      slice_end_eq hline
    rw [Scan.round, if_pos (by dsimp only; omega), hstart, except_ok_bind, hnone, except_ok_bind]
    dsimp only
    rw [slice_end_eq h]
    rfl

/-- When there is an atom left, the round finds it and ends behind it. -/
theorem round_of_atom {line before rest : List Char} {a : Atom}
    (hsize : utf8Length line < Size.bound) (h : line = before ++ a.lead ++ a.text ++ rest)
    (hlead : AllBlank a.lead) (hatom : IsAtom a.text)
    (hstop : IsRun a.text → ∀ c ∈ rest.head?, isNarrow c = false) (found : List Atom) :
    Scan.round line ⟨utf8Length before, found⟩ =
      .ok (.again ⟨utf8Length (before ++ a.lead ++ a.text), found ++ [a]⟩) := by
  obtain ⟨lead, text⟩ := a
  dsimp only at *
  obtain ⟨first, more, rfl⟩ := List.exists_cons_of_ne_nil hatom.ne_nil
  have hfirst := hatom.not_blank first (by simp)
  have hroom : utf8Length before < utf8Length line := by
    have htext := utf8Length_of_atom hatom
    rw [h, utf8Length_append, utf8Length_append, utf8Length_append]
    omega
  have hstart : seek (fun c => !isBlank c) line (utf8Length before) =
      .ok (utf8Length (before ++ lead)) :=
    seek_eq hsize (h.trans (List.append_assoc ..)) (by simpa [AllBlank] using hlead)
      (by simpa using hfirst)
  have hbehind : slice line (utf8Length (before ++ lead)) (utf8Length line) =
      .ok (first :: more ++ rest) :=
    slice_end_eq (h.trans (List.append_assoc ..))
  have hend := atomEnd_eq hsize h hatom hstop
  have hsliced : slice line (utf8Length before) (utf8Length (before ++ lead)) = .ok lead :=
    slice_eq (h.trans (List.append_assoc ..))
  rw [Scan.round, if_pos hroom, hstart, except_ok_bind, hbehind, except_ok_bind]
  dsimp only [List.cons_append]
  rw [hend, except_ok_bind, hsliced, except_ok_bind, slice_eq h]
  rfl

/-! ## A whole scan -/

/-- From where the rest of a line is divided, a scan finds the atoms of the rest one by one. -/
theorem run_of_division {line before trailing : List Char} {as : List Atom}
    (hsize : utf8Length line < Size.bound) (hdiv : IsDivision as trailing)
    (h : line = before ++ join as trailing) (found : List Atom) {rounds : Nat}
    (hrounds : as.length < rounds) :
    Scan.run line rounds ⟨utf8Length before, found⟩ = .ok (some (found ++ as, trailing)) := by
  -- The position stands behind the atoms found so far, and what is left divides the rest.
  induction as generalizing before found rounds with
  | nil =>
    obtain ⟨rounds, rfl⟩ := Nat.exists_eq_add_one_of_ne_zero (Nat.ne_zero_of_lt hrounds)
    rw [Scan.run, round_of_blank hsize h hdiv.trailing_blank, except_ok_bind, List.append_nil]
    rfl
  | cons a more ih =>
    obtain ⟨rounds, rfl⟩ := Nat.exists_eq_add_one_of_ne_zero (Nat.ne_zero_of_lt hrounds)
    have hline : line = before ++ a.lead ++ a.text ++ join more trailing := by
      simpa [join] using h
    have hround := round_of_atom hsize hline (hdiv.lead_blank a (by simp))
      (hdiv.text_atom a (by simp)) (not_narrow_of_apart hdiv) found
    have hmore := ih hdiv.tail hline (found ++ [a]) (Nat.lt_of_succ_lt_succ hrounds)
    rw [Scan.run, hround, except_ok_bind]
    dsimp only
    rw [hmore, List.append_assoc, List.singleton_append]

/-- A line that can be in memory is scanned to its end without a fault, in one round for each atom
and a last one, and the scan has what `atoms` finds. That is a division of the line, and the line
has no other one. -/
theorem scan_division (line : List Char) :
    (utf8Length line ≤ Size.bytesMax → ∀ rounds, (atoms line).1.length < rounds →
      Scan.run line rounds ⟨0, []⟩ = .ok (some (atoms line))) ∧
    ∀ as trailing, Divides as trailing line ↔ atoms line = (as, trailing) := by
  refine ⟨fun h rounds hrounds => ?_, fun as trailing => (atoms_eq_iff line as trailing).symm⟩
  have hsize : utf8Length line < Size.bound := Nat.lt_of_le_of_lt h (by decide)
  have hline : line = [] ++ join (atoms line).1 (atoms line).2 := (join_atoms line).symm
  exact run_of_division hsize (isDivision_atoms line) hline [] hrounds

/-- A line with characters of one to four bytes, among them a blank one of three. -/
theorem scan_division_mixed :
    utf8Length " éa\u3000b日😀 ".toList ≤ Size.bytesMax ∧
    Scan.run " éa\u3000b日😀 ".toList 5 ⟨0, []⟩ =
      .ok (some ([⟨[' '], "éa".toList⟩, ⟨['\u3000'], ['b']⟩, ⟨[], ['日']⟩, ⟨[], ['😀']⟩], [' '])) ∧
    Divides [⟨[' '], "éa".toList⟩, ⟨['\u3000'], ['b']⟩, ⟨[], ['日']⟩, ⟨[], ['😀']⟩] [' ']
      " éa\u3000b日😀 ".toList := by
  have hlength : utf8Length " éa\u3000b日😀 ".toList ≤ Size.bytesMax := by decide +kernel
  obtain ⟨hscan, hdivides⟩ := scan_division " éa\u3000b日😀 ".toList
  have hatoms : atoms " éa\u3000b日😀 ".toList =
      ([⟨[' '], "éa".toList⟩, ⟨['\u3000'], ['b']⟩, ⟨[], ['日']⟩, ⟨[], ['😀']⟩], [' ']) := by
    decide +kernel
  have hrun := hscan hlength 5 (by rw [hatoms]; decide)
  rw [hatoms] at hrun
  exact ⟨hlength, hrun, (hdivides _ _).mpr hatoms⟩

end TwinScreen.Text
