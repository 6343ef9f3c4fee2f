import TwinScreen.Proofs.Toml.Grafting

/-!
# What a plain document says

A plain document may start with values in front of its first header, and its sections and the values
in each may stand in any order. If no header and no value is given twice, and no value stands where
a header needs a table, then it is a document in which each value stands at the end of the path that
its header and its name make, and besides these there are only the tables on the paths of the
headers (`Plain.parse?_text`).
-/
namespace TwinScreen.Toml

/-! ## Headers and lines -/

/-- No header and no line is given twice, and no line stands where a header needs a table. -/
structure Consistent (headers : List (List String)) (lines : List (List String × Value)) :
    Prop where
  headers_nodup : headers.Nodup
  lines_nodup : (lines.map Prod.fst).Nodup
  apart : ∀ l ∈ lines, ∀ h ∈ headers, ¬ l.1 <+: h

/-- Fewer headers and lines are consistent if more of them are. -/
theorem Consistent.mono {headers headers' : List (List String)}
    {lines lines' : List (List String × Value)} (hheaders : headers.Sublist headers')
    (hlines : lines.Sublist lines') (h : Consistent headers' lines') :
    Consistent headers lines where
  headers_nodup := h.headers_nodup.sublist hheaders
  lines_nodup := h.lines_nodup.sublist (hlines.map _)
  apart l hl k hk := h.apart l (hlines.subset hl) k (hheaders.subset hk)

/-- What stands in a document are these lines and the tables on the paths of these headers. -/
structure Mirrors (headers : List (List String)) (lines : List (List String × Value))
    (v : Value) : Prop where
  sorted : v.Throughout Value.Sorted
  table : ∀ h ∈ headers, ∀ q, q <+: h →
    ∃ entries, v.at? q = some (.table (if q ∈ headers then .header else .implied) entries)
  line : ∀ l ∈ lines, v.at? l.1 = some l.2
  only : ∀ q w, v.at? q = some w → (∃ h ∈ headers, q <+: h) ∨ (q, w) ∈ lines

section Steps

open Value

variable {headers : List (List String)} {lines : List (List String × Value)} {v : Value}

theorem mirrors_empty : Mirrors [[]] [] (.table .header []) where
  sorted := .table List.Pairwise.nil (by simp)
  table h hh q hq := by
    obtain rfl := List.mem_singleton.mp hh
    obtain rfl := List.prefix_nil.mp hq
    exact ⟨[], rfl⟩
  line l hl := by cases hl
  only q w h := by
    cases q with
    | nil => exact .inl ⟨[], by simp, List.prefix_refl _⟩
    | cons m q => cases h

/-- A path that no line cuts off leads through tables. -/
theorem Mirrors.exists_table (h : Mirrors headers lines v) {p q : List String} {w : Value}
    (hp : ∀ l ∈ lines, ¬ l.1 <+: p) (hq : q <+: p) (hw : v.at? q = some w) :
    ∃ entries, w = .table (if q ∈ headers then .header else .implied) entries := by
  rcases h.only q w hw with ⟨k, hk, hqk⟩ | hline
  · obtain ⟨entries, hentries⟩ := h.table k hk q hqk
    exact ⟨entries, Option.some.inj (hw.symm.trans hentries)⟩
  · exact absurd hq (hp _ hline)

theorem Mirrors.leads (h : Mirrors headers lines v) {p : List String}
    (hp : ∀ l ∈ lines, ¬ l.1 <+: p) : Leads p v := by
  intro q hq w hw
  obtain ⟨entries, rfl⟩ := h.exists_table hp hq hw
  exact ⟨_, entries, rfl, by split <;> rfl⟩

/-- A table is one of a header if the header is there, and only implied otherwise. -/
theorem Mirrors.originAt (h : Mirrors headers lines v) {p q : List String}
    (hp : ∀ l ∈ lines, ¬ l.1 <+: p) (hq : q <+: p) :
    v.originAt q = if q ∈ headers then .header else .implied := by
  rw [Value.originAt]
  cases hw : v.at? q with
  | some w =>
    obtain ⟨entries, rfl⟩ := h.exists_table hp hq hw
    rfl
  | none =>
    have hq : q ∉ headers := by
      intro hmem
      obtain ⟨entries, hentries⟩ := h.table q hmem q (List.prefix_refl q)
      rw [hw] at hentries
      cases hentries
    rw [if_neg hq]

/-- Nothing stands at the end of the path of a line that is still to come. -/
theorem Mirrors.at?_eq_none (h : Mirrors headers lines v) {p : List String} {w : Value}
    (hcons : Consistent headers (lines ++ [(p, w)])) : v.at? p = none := by
  cases hx : v.at? p with
  | none => rfl
  | some x =>
    rcases h.only p x hx with ⟨k, hk, hprefix⟩ | hline
    · exact absurd hprefix (hcons.apart (p, w) (by simp) k hk)
    · have hnodup := hcons.lines_nodup
      rw [List.map_append, List.nodup_append] at hnodup
      exact absurd rfl (hnodup.2.2 p (List.mem_map_of_mem hline) p (by simp))

/-- One more line below a header. -/
theorem Mirrors.graft_line (h : Mirrors headers lines v) {p : List String} {name : String}
    {w after : Value} (hp : p ∈ headers)
    (hcons : Consistent headers (lines ++ [(p ++ [name], w)])) (hleaf : w.IsLeaf)
    (hsorted : after.Throughout Sorted) (hgraft : Grafted (p ++ [name]) w v after) :
    Mirrors headers (lines ++ [(p ++ [name], w)]) after := by
  have happart : ∀ k ∈ headers, ¬ p ++ [name] <+: k := hcons.apart (p ++ [name], w) (by simp)
  have hlines : ∀ l ∈ lines, ¬ l.1 <+: p := fun l hl =>
    hcons.apart l (List.mem_append_left _ hl) p hp
  have hfresh : ∀ l ∈ lines, l.1 ≠ p ++ [name] := by
    have hbefore := h.at?_eq_none hcons
    intro l hl heq
    rw [← heq, h.line l hl] at hbefore
    cases hbefore
  have hbefore : v.at? (p ++ [name]) = none := h.at?_eq_none hcons
  have helsewhere {q : List String} (hq : ¬ q <+: p ++ [name]) : after.at? q = v.at? q :=
    -- nothing stood at the new path and nothing can stand below a line
    hgraft.elsewhere
      (fun r hr => by rw [hleaf.at?_eq_none hr, at?_append, hbefore, Option.bind_none]) hq
  refine ⟨hsorted, fun k hk q hq => ?_, fun l hl => ?_, fun q x hx => ?_⟩
  · by_cases habove : q <+: p ++ [name]
    · rcases List.prefix_concat_iff.mp habove with rfl | hqp
      · exact absurd hq (happart k hk)
      · rw [← h.originAt hlines hqp]
        refine hgraft.above q habove ?_
        rintro rfl
        exact happart k hk hq
    · rw [helsewhere habove]
      exact h.table k hk q hq
  · rcases List.mem_append.mp hl with hold | hnew
    · have habove : ¬ l.1 <+: p ++ [name] := fun hprefix =>
        (List.prefix_concat_iff.mp hprefix).elim (hfresh l hold) (hlines l hold)
      rw [helsewhere habove, h.line l hold]
    · rw [List.mem_singleton.mp hnew, hgraft.at_path]
  · by_cases habove : q <+: p ++ [name]
    · rcases List.prefix_concat_iff.mp habove with rfl | hqp
      · rw [hgraft.at_path] at hx
        simp [Option.some.inj hx]
      · exact .inl ⟨p, hp, hqp⟩
    · rw [helsewhere habove] at hx
      exact (h.only q x hx).imp_right (List.mem_append_left _)

/-- Where a new header leads, there is nothing or a table that other headers lead through, and the
same things stand below. -/
theorem Mirrors.exists_implied (h : Mirrors headers lines v) {p : List String}
    (hcons : Consistent (headers ++ [p]) lines) :
    ∃ entries, (v.at? p = none ∧ entries = [] ∨ v.at? p = some (.table .implied entries)) ∧
      ∀ r ≠ [], (Value.table .header entries).at? r = v.at? (p ++ r) := by
  have hlines : ∀ l ∈ lines, ¬ l.1 <+: p := fun l hl => hcons.apart l hl p (by simp)
  cases hw : v.at? p with
  | none =>
    refine ⟨[], .inl ⟨rfl, rfl⟩, fun r hr => ?_⟩
    obtain ⟨m, more, rfl⟩ := List.exists_cons_of_ne_nil hr
    rw [at?_append, hw]
    rfl
  | some w =>
    obtain ⟨entries, rfl⟩ := h.exists_table hlines (List.prefix_refl p) hw
    have hnew : p ∉ headers := by
      have hnodup := hcons.headers_nodup
      rw [List.nodup_append] at hnodup
      exact fun hp => hnodup.2.2 p hp p (by simp) rfl
    refine ⟨entries, .inr (by rw [if_neg hnew]), fun r hr => ?_⟩
    obtain ⟨m, more, rfl⟩ := List.exists_cons_of_ne_nil hr
    rw [at?_append_of hw, at?_table, at?_table]

/-- One more header. -/
theorem Mirrors.graft_header (h : Mirrors headers lines v) {p : List String} {w after : Value}
    (hcons : Consistent (headers ++ [p]) lines) (hw : ∃ entries, w = .table .header entries)
    (hbelow : ∀ r ≠ [], w.at? r = v.at? (p ++ r))
    (hsorted : after.Throughout Sorted) (hgraft : Grafted p w v after) :
    Mirrors (headers ++ [p]) lines after := by
  have hlines : ∀ l ∈ lines, ¬ l.1 <+: p := fun l hl => hcons.apart l hl p (by simp)
  refine ⟨hsorted, fun k hk q hq => ?_, fun l hl => ?_, fun q x hx => ?_⟩
  · by_cases habove : q <+: p
    · by_cases heq : q = p
      · obtain ⟨entries, rfl⟩ := hw
        subst heq
        exact ⟨entries, by rw [hgraft.at_path, if_pos (by simp)]⟩
      · have hmem : q ∈ headers ++ [p] ↔ q ∈ headers := by simp [heq]
        rw [if_congr hmem rfl rfl, ← h.originAt hlines habove]
        exact hgraft.above q habove heq
    · have hne : q ≠ p := by
        rintro rfl
        exact habove (List.prefix_refl q)
      have hmem : q ∈ headers ++ [p] ↔ q ∈ headers := by simp [hne]
      rw [hgraft.elsewhere hbelow habove, if_congr hmem rfl rfl]
      rcases List.mem_append.mp hk with hold | hnew
      · exact h.table k hold q hq
      · exact absurd (List.mem_singleton.mp hnew ▸ hq) habove
  · rw [hgraft.elsewhere hbelow (hlines l hl), h.line l hl]
  · by_cases habove : q <+: p
    · exact .inl ⟨p, by simp, habove⟩
    · rw [hgraft.elsewhere hbelow habove] at hx
      refine (h.only q x hx).imp_left ?_
      rintro ⟨k, hk, hqk⟩
      exact ⟨k, List.mem_append_left _ hk, hqk⟩

end Steps

/-! ## Plain documents -/

theorem Scalar.isLeaf_value (x : Scalar) : x.value.IsLeaf := by
  cases x <;> trivial

/-- The lines below a header. -/
def linesAt (path : List String) (entries : List (BareName × Scalar)) :
    List (List String × Value) :=
  entries.map fun e => (path ++ [e.1.text], e.2.value)

namespace Section

def path (s : Section) : List String := s.name.text :: s.more.map BareName.text

def lines (s : Section) : List (List String × Value) := linesAt s.path s.entries

theorem names_partsBefore (more : List BareName) (parts : List Key × Key) (rest : List Char) :
    names ((partsBefore parts more rest).1 ++ [(partsBefore parts more rest).2]) =
      names (parts.1 ++ [parts.2]) ++ more.map BareName.text := by
  induction more generalizing parts with
  | nil => simp [partsBefore]
  | cons name more ih =>
    rw [partsBefore, ih]
    simp [names]

theorem names_parts (s : Section) (rest : List Char) :
    names ((s.parts rest).1 ++ [(s.parts rest).2]) = s.path := by
  rw [parts, names_partsBefore]
  rfl

end Section

/-- Values in front of the first header, and sections. -/
structure Plain where
  top : List (BareName × Scalar)
  sections : List Section

namespace Plain

def text (f : Plain) : List Char := linesBefore f.top (Toml.sections f.sections)

def headers (f : Plain) : List (List String) := f.sections.map Section.path

def lines (f : Plain) : List (List String × Value) :=
  linesAt [] f.top ++ f.sections.flatMap Section.lines

def statements (f : Plain) : List Statement :=
  (entriesBefore f.top (Toml.sections f.sections)).map .ofEntry ++ statementsOf f.sections

/-- The statements of a plain document are those that it is written from. -/
theorem statements?_text (f : Plain) : statements? f.text = some f.statements := by
  have hread : Reader.Reads Reader.statements f.text f.statements [] :=
    Reader.reads_lines _ [] _ _ (Reader.reads_sections _ _)
  have hmark : f.text.head? ≠ some '\ufeff' := by
    rw [text]
    cases f.top with
    | nil => cases f.sections <;> simp [linesBefore, Toml.sections]
    | cons e more => exact e.1.head?_ne _ (by decide)
  rw [statements?, StateT.run, hread]
  · rfl
  · rintro rest heq
    exact hmark (by rw [heq]; rfl)

end Plain

namespace Draft

open Value

variable {headers : List (List String)} {lines : List (List String × Value)} {d : Draft}

/-- A consistent line can be added, and is mirrored then. -/
theorem exists_add_entry (h : Mirrors headers lines d.root) {name : BareName} {x : Scalar}
    (rest : List Char) (hcurrent : names d.current ∈ headers)
    (hcons : Consistent headers (lines ++ [(names d.current ++ [name.text], x.value)])) :
    ∃ root, d.add (.ofEntry (entryBefore name x rest)) = some ⟨root, d.current⟩ ∧
      Mirrors headers (lines ++ [(names d.current ++ [name.text], x.value)]) root := by
  have hlines : ∀ l ∈ lines, ¬ l.1 <+: names d.current := fun l hl =>
    hcons.apart l (List.mem_append_left _ hl) _ hcurrent
  have hchange : ∀ e, e.map (·.2.2) = d.root.at? (names d.current ++ [name.text]) →
      ∃ e', free (entryBefore name x rest) e = some e' ∧ e'.1.name = name.text ∧
        e'.2.2 = x.value := by
    intro e he
    rw [h.at?_eq_none hcons, Option.map_eq_none_iff] at he
    exact ⟨entryBefore name x rest, by rw [he]; rfl, rfl, rfl⟩
  obtain ⟨root, hroot, hgraft⟩ :=
    exists_under d.current (name.key (settingBefore x rest)) h.sorted (h.leads hlines) hchange
  have hvalue : x.value.Throughout Sorted := .leaf x.isLeaf_value (by cases x <;> trivial)
  have hsorted : root.Throughout Sorted := lasting_sorted.under_keeps false
    (lasting_sorted.alterEntry_keeps (free_keepsName (entryBefore name x rest)) (free_keeps hvalue))
    d.current _ _ h.sorted hroot
  refine ⟨root, ?_, h.graft_line hcurrent hcons x.isLeaf_value hsorted hgraft⟩
  rw [add_ofEntry]
  exact Option.map_eq_some_iff.mpr ⟨root, hroot, rfl⟩

theorem exists_add_header (h : Mirrors headers lines d.root) (s : Section) (rest : List Char)
    (hcons : Consistent (headers ++ [s.path]) lines) :
    ∃ d', d.add (s.header rest) = some d' ∧ names d'.current = s.path ∧
      Mirrors (headers ++ [s.path]) lines d'.root := by
  have hnames := s.names_parts rest
  rcases hparts : s.parts rest with ⟨keys, key⟩
  rw [hparts] at hnames
  have hpath : names keys ++ [key.name] = s.path := by
    rw [← hnames]
    simp [names]
  have hlines : ∀ l ∈ lines, ¬ l.1 <+: s.path := fun l hl => hcons.apart l hl _ (by simp)
  obtain ⟨entries, hplace, hbelow⟩ := h.exists_implied hcons
  have hchange : ∀ e, e.map (·.2.2) = d.root.at? (names keys ++ [key.name]) →
      ∃ e', opened key (s.span rest) e = some e' ∧ e'.1.name = key.name ∧
        e'.2.2 = .table .header entries := by
    intro e he
    rw [hpath] at he
    rcases hplace with ⟨hnone, rfl⟩ | himplied
    · rw [hnone, Option.map_eq_none_iff] at he
      exact ⟨(key, s.span rest, .table .header []), by rw [he]; rfl, rfl, rfl⟩
    · rw [himplied] at he
      obtain ⟨⟨k, span, v⟩, rfl, rfl⟩ := Option.map_eq_some_iff.mp he
      exact ⟨(key, s.span rest, .table .header entries), rfl, rfl, rfl⟩
  have hleads : Leads (names keys) d.root := h.leads fun l hl hpast =>
    hlines l hl (hpast.trans ⟨[key.name], hpath⟩)
  obtain ⟨root, hroot, hgraft⟩ := exists_under keys key h.sorted hleads hchange
  have hsorted : root.Throughout Sorted := lasting_sorted.openTable_keeps keys key (s.span rest)
    _ _ h.sorted hroot
  refine ⟨⟨root, keys ++ [key]⟩, ?_, hnames, ?_⟩
  · rw [Section.header, hparts, add_table]
    exact Option.map_eq_some_iff.mpr ⟨root, hroot, rfl⟩
  · rw [hpath] at hgraft
    exact h.graft_header hcons ⟨entries, rfl⟩ hbelow hsorted hgraft

/-- Line by line. -/
theorem exists_foldlM_entries (entries : List (BareName × Scalar)) (rest : List Char)
    (h : Mirrors headers lines d.root) (hcurrent : names d.current ∈ headers)
    (hcons : Consistent headers (lines ++ linesAt (names d.current) entries)) :
    ∃ d', ((entriesBefore entries rest).map .ofEntry).foldlM add d = some d' ∧
      Mirrors headers (lines ++ linesAt (names d.current) entries) d'.root := by
  induction entries generalizing d lines with
  | nil => exact ⟨d, rfl, by simpa [linesAt] using h⟩
  | cons e more ih =>
    obtain ⟨name, x⟩ := e
    have hsplit : lines ++ linesAt (names d.current) ((name, x) :: more) =
        lines ++ [(names d.current ++ [name.text], x.value)] ++
          linesAt (names d.current) more := by
      simp [linesAt]
    rw [hsplit] at hcons ⊢
    obtain ⟨root, hroot, hfirst⟩ := exists_add_entry h (linesBefore more rest) hcurrent
      (hcons.mono (List.Sublist.refl _) (List.sublist_append_left _ _))
    obtain ⟨d', hd', hmore⟩ := ih (d := ⟨root, d.current⟩) hfirst hcurrent hcons
    refine ⟨d', ?_, hmore⟩
    rw [entriesBefore, List.map_cons, List.foldlM_cons, hroot]
    exact hd'

/-- Section by section. -/
theorem exists_foldlM_sections (more : List Section) (h : Mirrors headers lines d.root)
    (hcons : Consistent (headers ++ more.map Section.path) (lines ++ more.flatMap Section.lines)) :
    ∃ d', (statementsOf more).foldlM add d = some d' ∧
      Mirrors (headers ++ more.map Section.path) (lines ++ more.flatMap Section.lines) d'.root := by
  induction more generalizing d headers lines with
  | nil => exact ⟨d, rfl, by simpa using h⟩
  | cons s more ih =>
    have hheaders : headers ++ (s :: more).map Section.path =
        headers ++ [s.path] ++ more.map Section.path := by simp
    have hlines : lines ++ (s :: more).flatMap Section.lines =
        lines ++ s.lines ++ more.flatMap Section.lines := by simp
    rw [hheaders, hlines] at hcons ⊢
    obtain ⟨opened, hopened, hcurrent, hheader⟩ := exists_add_header h s (sections more)
      (hcons.mono (List.sublist_append_left _ _)
        ((List.sublist_append_left _ _).trans (List.sublist_append_left _ _)))
    have hbelow : linesAt (names opened.current) s.entries = s.lines := by
      rw [hcurrent, Section.lines]
    obtain ⟨filled, hfilled, hsection⟩ := exists_foldlM_entries s.entries (sections more) hheader
      (by rw [hcurrent]; simp)
      (by
        rw [hbelow]
        exact hcons.mono (List.sublist_append_left _ _) (List.sublist_append_left _ _))
    rw [hbelow] at hsection
    obtain ⟨d', hd', hmore⟩ := ih hsection hcons
    refine ⟨d', ?_, hmore⟩
    rw [statementsOf, Section.statements, List.foldlM_append, List.foldlM_cons, hopened]
    exact Option.bind_eq_some_iff.mpr ⟨filled, hfilled, hd'⟩

end Draft

namespace Plain

theorem consistent_root {headers : List (List String)} {lines : List (List String × Value)}
    (hheaders : ∀ h ∈ headers, h ≠ []) (hlines : ∀ l ∈ lines, l.1 ≠ [])
    (h : Consistent headers lines) : Consistent ([[]] ++ headers) lines where
  headers_nodup := List.nodup_cons.mpr ⟨fun hmem => hheaders [] hmem rfl, h.headers_nodup⟩
  lines_nodup := h.lines_nodup
  apart l hl k hk hprefix := by
    rcases List.mem_cons.mp hk with rfl | hk
    · exact hlines l hl (List.prefix_nil.mp hprefix)
    · exact h.apart l hl k hk hprefix

theorem lines_ne_nil (f : Plain) : ∀ l ∈ f.lines, l.1 ≠ [] := by
  have hat (path : List String) (entries : List (BareName × Scalar)) :
      ∀ l ∈ linesAt path entries, l.1 ≠ [] := by
    intro l hl
    obtain ⟨e, -, rfl⟩ := List.mem_map.mp hl
    simp
  intro l hl
  rcases List.mem_append.mp hl with htop | hsections
  · exact hat _ _ l htop
  · obtain ⟨s, -, hs⟩ := List.mem_flatMap.mp hsections
    exact hat _ _ l hs

/-- A plain document is read. Each of its values stands at its path, the tables are those on the
paths of the headers, and there is nothing else. -/
theorem parse?_text (f : Plain) (h : Consistent f.headers f.lines) :
    ∃ v, parse? f.text = some v ∧ Mirrors ([[]] ++ f.headers) f.lines v := by
  have hcons : Consistent ([[]] ++ f.headers) f.lines :=
    consistent_root (by simp [headers, Section.path]) f.lines_ne_nil h
  have hempty : Mirrors [[]] [] Draft.empty.root := mirrors_empty
  obtain ⟨top, htop, hfirst⟩ := Draft.exists_foldlM_entries f.top (Toml.sections f.sections) hempty
    (by simp [Draft.empty, names])
    (hcons.mono (List.sublist_append_left _ _) (List.sublist_append_left _ _))
  obtain ⟨d, hd, hmore⟩ := Draft.exists_foldlM_sections f.sections hfirst hcons
  refine ⟨d.root, ?_, hmore⟩
  have hrun : f.statements.foldlM Draft.add Draft.empty = some d := by
    rw [statements, List.foldlM_append, htop]
    exact hd
  rw [parse?, statements?_text]
  exact Option.map_eq_some_iff.mpr ⟨d, hrun, rfl⟩

theorem exists_mem_of_mem_entriesBefore {entries : List (BareName × Scalar)} {rest : List Char}
    {e : Entry} (he : e ∈ entriesBefore entries rest) : ∃ line ∈ entries, e.2.2 = line.2.value := by
  induction entries with
  | nil => cases he
  | cons line more ih =>
    rcases List.mem_cons.mp he with rfl | he
    · exact ⟨line, List.mem_cons_self, rfl⟩
    · obtain ⟨other, hother, hvalue⟩ := ih he
      exact ⟨other, List.mem_cons_of_mem _ hother, hvalue⟩

/-- What holds of the values of all lines, and of tables as they change, holds of all values in the
document. -/
theorem throughout_of_parse? {f : Plain} {v : Value} {p : Value → Prop} (hp : Value.Lasting p)
    (hlines : ∀ l ∈ f.lines, p l.2) (h : parse? f.text = some v) : v.Throughout p := by
  have hentries (path : List String) {entries : List (BareName × Scalar)} (rest : List Char)
      (hat : ∀ l ∈ linesAt path entries, p l.2) :
      ∀ s ∈ (entriesBefore entries rest).map .ofEntry, Statement.Assigns p s := by
    intro s hs
    obtain ⟨e, he, rfl⟩ := List.mem_map.mp hs
    obtain ⟨line, hline, hvalue⟩ := exists_mem_of_mem_entriesBefore he
    rw [Statement.ofEntry, Statement.Assigns, hvalue]
    exact .leaf line.2.isLeaf_value (hat _ (List.mem_map_of_mem hline))
  have hsections (more : List Section) (hmore : ∀ l ∈ more.flatMap Section.lines, p l.2) :
      ∀ s ∈ statementsOf more, Statement.Assigns p s := by
    induction more with
    | nil => simp [statementsOf]
    | cons first more ih =>
      rw [List.flatMap_cons, List.forall_mem_append] at hmore
      rw [statementsOf, Section.statements, List.forall_mem_append, List.forall_mem_cons]
      exact ⟨⟨trivial, hentries first.path _ hmore.1⟩, ih hmore.2⟩
  rw [lines, List.forall_mem_append] at hlines
  rw [parse?, statements?_text] at h
  refine Value.ofStatements?_throughout hp ?_ h
  rw [statements, List.forall_mem_append]
  exact ⟨hentries [] _ hlines.1, hsections _ hlines.2⟩

end Plain

end TwinScreen.Toml
