import TwinScreen.Proofs.Toml.Number
import TwinScreen.Proofs.Toml.Reader
import TwinScreen.Toml.Statement

/-!
# Plain documents

A plain document is written in sections: a header, whose name may be dotted, and a line for each
value, which is a whole number or a text that needs no escapes. An empty line stands between two
sections. Everything is written in front of a given rest, since places are known by the number of
characters that follow. What is read of a plain document are the statements it was written for, each
with its place (`statements?_document`).
-/
namespace TwinScreen.Toml

/-- A name that needs no quotation marks. -/
structure BareName where
  text : String
  ne_nil : text.toList ≠ [] := by decide
  bare : text.toList.all Reader.isBare = true := by decide

inductive Scalar where
  | whole (n : Nat)
  | quoted (s : List Char) (verbatim : ∀ c ∈ s, Reader.IsVerbatim c)

structure Section where
  name : BareName
  /-- The further parts of a dotted name. -/
  more : List BareName
  entries : List (BareName × Scalar)
  more_length : more.length < Reader.depthLimit

namespace Section

/-- A section whose name is not dotted. -/
def simple (name : BareName) (entries : List (BareName × Scalar)) : Section :=
  ⟨name, [], entries, by decide⟩

/-- A section whose name has two parts. -/
def dotted (name part : BareName) (entries : List (BareName × Scalar)) : Section :=
  ⟨name, [part], entries, by simp [Reader.depthLimit]⟩

end Section

/-! ## The written form -/

namespace Scalar

/-- A text whose characters all stand for themselves. -/
def plainText (s : String)
    (verbatim : (s.toList.all fun c => decide (Reader.IsVerbatim c)) = true := by decide) :
    Scalar :=
  .quoted s.toList (by simpa using verbatim)

def value : Scalar → Value
  | whole n => .integer n
  | quoted s _ => .text (String.ofList s)

def before : Scalar → List Char → List Char
  | whole n, rest => Nat.toDigits 10 n ++ rest
  | quoted s _, rest => '"' :: (s ++ '"' :: rest)

end Scalar

def BareName.before (name : BareName) (rest : List Char) : List Char := name.text.toList ++ rest

/-- The further parts of a dotted name. -/
def dotsBefore : List BareName → List Char → List Char
  | [], rest => rest
  | name :: more, rest => '.' :: name.before (dotsBefore more rest)

/-- What stands behind the name on the line of a value. -/
def settingBefore (x : Scalar) (rest : List Char) : List Char :=
  ' ' :: '=' :: ' ' :: x.before ('\n' :: rest)

def linesBefore : List (BareName × Scalar) → List Char → List Char
  | [], rest => rest
  | (name, x) :: more, rest => name.before (settingBefore x (linesBefore more rest))

namespace Section

/-- What stands behind the first part of the name in a section. -/
def behindName (s : Section) (rest : List Char) : List Char :=
  dotsBefore s.more (']' :: '\n' :: linesBefore s.entries rest)

def before (s : Section) (rest : List Char) : List Char := '[' :: s.name.before (s.behindName rest)

end Section

def sections : List Section → List Char
  | [] => []
  | s :: more => '\n' :: s.before (sections more)

/-- A document of at least one section. -/
def document (first : Section) (more : List Section) : List Char := first.before (sections more)

/-! ## The statements -/

/-- The span of a text in front of a rest. -/
def spanBefore (text rest : List Char) : Span := ⟨text.length, rest.length⟩

def BareName.key (name : BareName) (rest : List Char) : Key :=
  ⟨name.text, spanBefore (name.before rest) rest⟩

@[simp] theorem BareName.key_name (name : BareName) (rest : List Char) :
    (name.key rest).name = name.text := rfl

/-- A dotted name of which these parts have been read. -/
def partsBefore (parts : List Key × Key) : List BareName → List Char → List Key × Key
  | [], _ => parts
  | name :: more, rest =>
      partsBefore (parts.1 ++ [parts.2], name.key (dotsBefore more rest)) more rest

def entryBefore (name : BareName) (x : Scalar) (rest : List Char) : Entry :=
  (name.key (settingBefore x rest), spanBefore (x.before ('\n' :: rest)) ('\n' :: rest), x.value)

def entriesBefore : List (BareName × Scalar) → List Char → List Entry
  | [], _ => []
  | (name, x) :: more, rest =>
      entryBefore name x (linesBefore more rest) :: entriesBefore more rest

/-- The assignment of an entry to a name that is not dotted. -/
def Statement.ofEntry (e : Entry) : Statement := .assign [] e.1 e.2.1 e.2.2

namespace Section

def parts (s : Section) (rest : List Char) : List Key × Key :=
  partsBefore ([], s.name.key (s.behindName rest)) s.more
    (']' :: '\n' :: linesBefore s.entries rest)

def span (s : Section) (rest : List Char) : Span :=
  spanBefore (s.before rest) ('\n' :: linesBefore s.entries rest)

def header (s : Section) (rest : List Char) : Statement :=
  .table (s.parts rest).1 (s.parts rest).2 (s.span rest)

def statements (s : Section) (rest : List Char) : List Statement :=
  s.header rest :: (entriesBefore s.entries rest).map .ofEntry

end Section

def statementsOf : List Section → List Statement
  | [] => []
  | s :: more => s.statements (sections more) ++ statementsOf more

/-! ## Nothing is lost of the rest -/

@[simp] theorem BareName.length_before (name : BareName) (rest : List Char) :
    (name.before rest).length = name.text.toList.length + rest.length := List.length_append

theorem Scalar.length_le_before (x : Scalar) (rest : List Char) :
    rest.length ≤ (x.before rest).length := by
  cases x with
  | whole n => simp [before]
  | quoted s hs =>
    simp only [before, List.length_cons, List.length_append]
    omega

theorem length_lt_settingBefore (x : Scalar) (rest : List Char) :
    rest.length < (settingBefore x rest).length := by
  have hvalue := x.length_le_before ('\n' :: rest)
  simp only [settingBefore, List.length_cons] at hvalue ⊢
  omega

theorem length_le_dotsBefore (more : List BareName) (rest : List Char) :
    rest.length ≤ (dotsBefore more rest).length := by
  induction more with
  | nil => exact Nat.le_refl _
  | cons name more ih =>
    simp only [dotsBefore, List.length_cons, BareName.length_before]
    omega

theorem Section.length_lt_before (s : Section) (rest : List Char) :
    (linesBefore s.entries rest).length < (s.before rest).length := by
  have hdots := length_le_dotsBefore s.more (']' :: '\n' :: linesBefore s.entries rest)
  simp only [before, behindName, List.length_cons, BareName.length_before] at hdots ⊢
  omega

/-! ## Names are read -/

namespace Reader

theorem isSpace_of_isBare {c : Char} (h : isBare c = true) : isSpace c = false := by
  have hspace : c ≠ ' ' := ne_of_kind h (by decide)
  have htab : c ≠ '\t' := ne_of_kind h (by decide)
  simp [isSpace, hspace, htab]

end Reader

namespace BareName

open Reader

theorem isBare_of_mem (name : BareName) {c : Char} (h : c ∈ name.text.toList) : isBare c = true :=
  List.all_eq_true.mp name.bare c h

theorem before_ne_nil (name : BareName) (rest : List Char) : name.before rest ≠ [] :=
  List.append_ne_nil_of_left_ne_nil name.ne_nil rest

theorem head?_bare (name : BareName) (rest : List Char) :
    ∀ c ∈ (name.before rest).head?, isBare c = true := by
  obtain ⟨c, others, hname⟩ := List.exists_cons_of_ne_nil name.ne_nil
  have hc : isBare c = true := name.isBare_of_mem (by simp [hname])
  simpa [before, hname] using hc

theorem head?_ne (name : BareName) (rest : List Char) {d : Char} (hd : isBare d = false) :
    (name.before rest).head? ≠ some d := fun h =>
  ne_of_kind (name.head?_bare rest d h) hd rfl

theorem reads_space (name : BareName) (rest : List Char) :
    Reads (skipWhile isSpace) (name.before rest) () (name.before rest) :=
  reads_skipWhile_none fun c hc => isSpace_of_isBare (name.head?_bare rest c hc)

/-- A bare name ends at the first character that no such name has. -/
theorem reads_simpleName (name : BareName) {rest : List Char}
    (hrest : ∀ c ∈ rest.head?, isBare c = false) :
    Reads simpleName (name.before rest) name.text rest := by
  refine Reads.bind (reads_peek _) ?_
  split
  · rename_i hquote
    exact absurd hquote (name.head?_ne rest (by decide))
  · rename_i hquote
    exact absurd hquote (name.head?_ne rest (by decide))
  · refine Reads.bind (reads_takeWhile isBare _ rest (fun c => name.isBare_of_mem) hrest) ?_
    split
    · rename_i hnil
      exact absurd hnil name.ne_nil
    · rw [String.ofList_toList]
      exact reads_pure _ _

theorem reads_simpleKey (name : BareName) {rest : List Char}
    (hrest : ∀ c ∈ rest.head?, isBare c = false) :
    Reads simpleKey (name.before rest) (name.key rest) rest :=
  Reads.bind (name.reads_simpleName hrest).spanned (reads_pure _ _)

end BareName

namespace Reader

theorem reads_nextPart_done (parts : List Key × Key) {rest after : List Char}
    (hspace : Reads (skipWhile isSpace) rest () after) (hafter : after.head? ≠ some '.') :
    Reads (nextPart parts) rest (.done parts) after :=
  Reads.bind hspace (Reads.bind (reads_accept_other hafter) (reads_pure _ _))

theorem reads_nextPart_again (parts : List Key × Key) (name : BareName) {rest : List Char}
    (hrest : ∀ c ∈ rest.head?, isBare c = false) :
    Reads (nextPart parts) ('.' :: name.before rest)
      (.again (parts.1 ++ [parts.2], name.key rest)) rest := by
  refine Reads.bind (reads_skipWhile_none (head?_cons_of (by decide))) ?_
  refine Reads.bind (reads_accept _ _) (Reads.bind (name.reads_space rest) ?_)
  exact Reads.bind (name.reads_simpleKey hrest) (reads_pure _ _)

theorem head?_dotsBefore (more : List BareName) {rest : List Char}
    (hrest : ∀ c ∈ rest.head?, isBare c = false) :
    ∀ c ∈ (dotsBefore more rest).head?, isBare c = false := by
  cases more with
  | nil => exact hrest
  | cons name more => exact head?_cons_of (by decide)

/-- Each round takes one more part. -/
theorem reads_parts (more : List BareName) (parts : List Key × Key) {rest after : List Char}
    (hrest : ∀ c ∈ rest.head?, isBare c = false)
    (hspace : Reads (skipWhile isSpace) rest () after) (hafter : after.head? ≠ some '.') :
    Reads (loop nextPart parts) (dotsBefore more rest) (partsBefore parts more rest) after := by
  induction more generalizing parts with
  | nil => exact reads_loop_done (reads_nextPart_done parts hspace hafter)
  | cons name more ih =>
    refine reads_loop_again (reads_nextPart_again parts name (head?_dotsBefore more hrest)) ?_
      (ih _)
    rw [dotsBefore, List.length_cons, BareName.length_before]
    omega

theorem length_partsBefore (more : List BareName) (parts : List Key × Key) (rest : List Char) :
    (partsBefore parts more rest).1.length = parts.1.length + more.length := by
  induction more generalizing parts with
  | nil => rfl
  | cons name more ih =>
    rw [partsBefore, ih, List.length_append, List.length_cons]
    simp
    omega

/-- A dotted name is read part by part. -/
theorem reads_dottedKey (name : BareName) (more : List BareName) (rest after : List Char)
    (hmore : more.length < depthLimit) (hrest : ∀ c ∈ rest.head?, isBare c = false)
    (hspace : Reads (skipWhile isSpace) rest () after) (hafter : after.head? ≠ some '.') :
    Reads dottedKey (name.before (dotsBefore more rest))
      (partsBefore ([], name.key (dotsBefore more rest)) more rest) after := by
  refine Reads.bind (name.reads_simpleKey (head?_dotsBefore more hrest)) ?_
  refine Reads.bind (reads_parts more _ hrest hspace hafter) ?_
  have hlength := length_partsBefore more ([], name.key (dotsBefore more rest)) rest
  rw [List.length_nil, Nat.zero_add] at hlength
  dsimp only
  rw [if_pos (by rwa [hlength])]
  exact reads_pure _ _

/-! ## Values are read -/

/-- A text of verbatim characters is read as it stands. -/
theorem reads_text {s : List Char} (h : ∀ c ∈ s, IsVerbatim c) (rest : List Char) :
    Reads (anyText '"' true) ('"' :: (s ++ '"' :: '\n' :: rest)) (String.ofList s)
      ('\n' :: rest) := by
  have hsingle : ('"' :: (s ++ '"' :: '\n' :: rest)).take 3 ≠ ['"', '"', '"'] := by
    cases s with
    | nil => simp
    | cons c others =>
      have hc : c ≠ '"' := (h c (by simp)).1
      simp [hc]
  refine Reads.bind (reads_get _) ?_
  rw [if_neg hsingle]
  exact Reads.bind (reads_expect _ _) (reads_lineText s _ h)

theorem isUnmarked_of_isDigit {c : Char} (h : c.isDigit = true) : isUnmarked c = true := by
  simp only [isUnmarked, List.contains_cons, List.contains_nil, Bool.not_eq_true',
    Bool.or_eq_false_iff, beq_eq_false_iff_ne, Bool.or_false]
  and_intros <;> exact ne_of_kind h (by decide)

theorem head?_digits (n : Nat) (rest : List Char) :
    ∀ c ∈ (Nat.toDigits 10 n ++ rest).head?, c.isDigit = true := by
  obtain ⟨c, others, hdigits⟩ :=
    List.exists_cons_of_ne_nil (Nat.toDigits_ne_nil (b := 10) (n := n))
  have hc : c.isDigit = true := isDigit_of_mem_toDigits (n := n) (by simp [hdigits])
  simpa [hdigits] using hc

theorem reads_number (n : Nat) (rest : List Char) :
    Reads simpleValue (Nat.toDigits 10 n ++ '\n' :: rest) (.integer n) ('\n' :: rest) := by
  refine Reads.bind (reads_peek _) ?_
  split
  · rename_i hquote
    exact absurd (head?_digits n _ _ hquote) (by decide)
  · rename_i hquote
    exact absurd (head?_digits n _ _ hquote) (by decide)
  · have hdigits : ∀ c ∈ Nat.toDigits 10 n, isUnmarked c = true := fun c hc =>
      isUnmarked_of_isDigit (isDigit_of_mem_toDigits hc)
    refine Reads.bind (reads_takeWhile isUnmarked _ _ hdigits (head?_cons_of (by decide))) ?_
    refine Reads.bind (a := Nat.toDigits 10 n) (t := '\n' :: rest) ?_ ?_
    · exact Reads.bind (reads_get _) (reads_pure _ _)
    · rw [ofWritten?_toDigits]
      exact reads_pure _ _

/-- A value starts with a quotation mark or a digit. -/
theorem head?_scalar_ne (x : Scalar) (rest : List Char) {d : Char} (hquote : d ≠ '"')
    (hdigit : d.isDigit = false) : (x.before rest).head? ≠ some d := by
  intro h
  cases x with
  | whole n => exact ne_of_kind (head?_digits n rest d h) hdigit rfl
  | quoted s hs => exact hquote (Option.some.inj h).symm

theorem reads_simpleValue (x : Scalar) (rest : List Char) :
    Reads simpleValue (x.before ('\n' :: rest)) x.value ('\n' :: rest) := by
  cases x with
  | whole n => exact reads_number n rest
  | quoted s hs =>
    exact Reads.bind (reads_peek _) (Reads.bind (reads_text hs rest) (reads_pure _ _))

theorem reads_value (depth : Nat) (x : Scalar) (rest : List Char) :
    Reads (value depth) (x.before ('\n' :: rest)) x.value ('\n' :: rest) := by
  cases depth with
  | zero => exact reads_simpleValue x rest
  | succ depth =>
    refine Reads.bind (reads_peek _) ?_
    split
    · rename_i hbracket
      exact absurd hbracket (head?_scalar_ne x _ (by decide) (by decide))
    · rename_i hbrace
      exact absurd hbrace (head?_scalar_ne x _ (by decide) (by decide))
    · exact reads_simpleValue x rest

/-! ## Lines are read -/

theorem reads_lineEnd (rest : List Char) : Reads lineEnd ('\n' :: rest) () rest := by
  refine Reads.bind (reads_skipWhile_none (head?_cons_of (by decide))) ?_
  exact Reads.bind (reads_accept_other (by simp)) rfl

theorem reads_scalar_space (x : Scalar) (rest : List Char) :
    Reads (skipWhile isSpace) (' ' :: x.before rest) () (x.before rest) := by
  refine (reads_skipWhile_none fun c hc => ?_ : Reads _ (x.before rest) _ _)
  have hspace : c ≠ ' ' := by
    rintro rfl
    exact head?_scalar_ne x rest (by decide) (by decide) hc
  have htab : c ≠ '\t' := by
    rintro rfl
    exact head?_scalar_ne x rest (by decide) (by decide) hc
  simp [isSpace, hspace, htab]

theorem reads_assignment (name : BareName) (x : Scalar) (rest : List Char) :
    Reads (assignment (skipWhile isSpace) (value depthLimit)) (name.before (settingBefore x rest))
      ([], name.key (settingBefore x rest), spanBefore (x.before ('\n' :: rest)) ('\n' :: rest),
        x.value)
      ('\n' :: rest) := by
  have hkey := reads_dottedKey name [] (settingBefore x rest)
    ('=' :: ' ' :: x.before ('\n' :: rest)) (by decide) (head?_cons_of (by decide)) rfl (by simp)
  refine Reads.bind hkey (Reads.bind (reads_skipWhile_none (head?_cons_of (by decide))) ?_)
  refine Reads.bind (reads_expect _ _) (Reads.bind (reads_scalar_space x _) ?_)
  exact Reads.bind (reads_value depthLimit x rest).spanned (reads_pure _ _)

theorem reads_statement_assignment (name : BareName) (x : Scalar) (rest : List Char) :
    Reads statement (name.before (settingBefore x rest)) (.ofEntry (entryBefore name x rest))
      rest := by
  refine Reads.bind (reads_peek _) ?_
  split
  · rename_i hbracket
    exact absurd hbracket (name.head?_ne _ (by decide))
  · refine Reads.bind (reads_assignment name x rest) ?_
    exact Reads.bind (reads_pure _ _) (Reads.bind (reads_lineEnd rest) (reads_pure _ _))

/-- A header is read with the path that its name spells. -/
theorem reads_header (s : Section) (rest : List Char) :
    Reads header (s.before rest) (s.header rest) ('\n' :: linesBefore s.entries rest) := by
  have hkey := reads_dottedKey s.name s.more (']' :: '\n' :: linesBefore s.entries rest)
    (']' :: '\n' :: linesBefore s.entries rest) s.more_length (head?_cons_of (by decide))
    (reads_skipWhile_none (head?_cons_of (by decide))) (by simp)
  have hparts : Reads headerKey (s.name.before (s.behindName rest)) (s.parts rest)
      (']' :: '\n' :: linesBefore s.entries rest) :=
    Reads.bind (s.name.reads_space _) hkey
  refine Reads.bind (Reads.spanned (a := (false, s.parts rest)) ?_) (reads_pure _ _)
  refine Reads.bind (reads_expect _ _) ?_
  refine Reads.bind (reads_accept_other (s.name.head?_ne _ (by decide))) ?_
  exact Reads.bind hparts (Reads.bind (reads_expect _ _) (reads_pure _ _))

theorem reads_statement_header (s : Section) (rest : List Char) :
    Reads statement (s.before rest) (s.header rest) (linesBefore s.entries rest) := by
  refine Reads.bind (reads_peek _) ?_
  refine Reads.bind (reads_header s rest) ?_
  exact Reads.bind (reads_lineEnd _) (reads_pure _ _)

/-! ## Documents are read -/

theorem reads_nextLine_empty (before : List Statement) (rest : List Char) :
    Reads (nextLine before) ('\n' :: rest) (.again before) rest := by
  refine Reads.bind (reads_skipWhile_none (head?_cons_of (by decide))) ?_
  exact Reads.bind (reads_peek _) (Reads.bind (reads_lineEnd rest) (reads_pure _ _))

theorem reads_nextLine_assignment (before : List Statement) (name : BareName) (x : Scalar)
    (rest : List Char) :
    Reads (nextLine before) (name.before (settingBefore x rest))
      (.again (before ++ [.ofEntry (entryBefore name x rest)])) rest := by
  refine Reads.bind (name.reads_space _) (Reads.bind (reads_peek _) ?_)
  split
  · rename_i hnil
    exact absurd (List.head?_eq_none_iff.mp hnil) (name.before_ne_nil _)
  · rename_i hsign
    exact absurd hsign (name.head?_ne _ (by decide))
  · rename_i hbreak
    exact absurd hbreak (name.head?_ne _ (by decide))
  · rename_i hreturn
    exact absurd hreturn (name.head?_ne _ (by decide))
  · exact Reads.bind (reads_statement_assignment name x rest) (reads_pure _ _)

/-- A header takes its line and leaves the lines below it. -/
theorem reads_nextLine_header (before : List Statement) (s : Section) (rest : List Char) :
    Reads (nextLine before) (s.before rest) (.again (before ++ [s.header rest]))
      (linesBefore s.entries rest) := by
  refine Reads.bind (reads_skipWhile_none (head?_cons_of (by decide))) ?_
  refine Reads.bind (reads_peek _) ?_
  exact Reads.bind (reads_statement_header s rest) (reads_pure _ _)

/-- Each round takes one line. -/
theorem reads_lines (entries : List (BareName × Scalar)) (before after : List Statement)
    (rest : List Char)
    (hrest : Reads (loop nextLine (before ++ (entriesBefore entries rest).map .ofEntry)) rest after
      []) :
    Reads (loop nextLine before) (linesBefore entries rest) after [] := by
  induction entries generalizing before with
  | nil => rwa [entriesBefore, List.map_nil, List.append_nil] at hrest
  | cons e more ih =>
    obtain ⟨name, x⟩ := e
    refine reads_loop_again (reads_nextLine_assignment before name x _) ?_ (ih _ ?_)
    · have hless := length_lt_settingBefore x (linesBefore more rest)
      rw [linesBefore, BareName.length_before]
      omega
    · simpa [entriesBefore] using hrest

/-- A section is read line by line. -/
theorem reads_section (s : Section) (before after : List Statement) (rest : List Char)
    (hrest : Reads (loop nextLine (before ++ s.statements rest)) rest after []) :
    Reads (loop nextLine before) (s.before rest) after [] := by
  refine reads_loop_again (reads_nextLine_header before s rest) (s.length_lt_before rest)
    (reads_lines _ _ _ _ ?_)
  simpa [Section.statements] using hrest

/-- All sections are read, by induction. -/
theorem reads_sections (more : List Section) (before : List Statement) :
    Reads (loop nextLine before) (sections more) (before ++ statementsOf more) [] := by
  induction more generalizing before with
  | nil =>
    rw [statementsOf, List.append_nil]
    exact reads_loop_done rfl
  | cons s more ih =>
    refine reads_loop_again (reads_nextLine_empty before _) (Nat.lt_succ_self _)
      (reads_section s _ _ _ ?_)
    simpa [statementsOf] using ih (before ++ s.statements (sections more))

end Reader

/-- A plain document consists of the statements it was written for. -/
theorem statements?_document (first : Section) (more : List Section) :
    statements? (document first more) = some (statementsOf (first :: more)) := by
  have hread : Reader.Reads Reader.statements (document first more) (statementsOf (first :: more))
      [] :=
    Reader.reads_section first [] _ _ (Reader.reads_sections more _)
  -- A bracket comes first, so there is no byte order mark to pass over.
  have hmark : statements? (document first more) =
      (Reader.statements (document first more)).map Prod.fst := rfl
  rw [hmark, hread]
  rfl

end TwinScreen.Toml
