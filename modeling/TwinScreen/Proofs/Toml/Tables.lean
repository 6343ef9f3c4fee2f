import TwinScreen.Proofs.Toml.Outline
import TwinScreen.Toml.Document

/-!
# How sections make tables

Assignments follow the path of their header from the root each time. Changes at the end of one path
are one change there (`under_bind_under`), so a section amounts to a single change: its header opens
a table, which then takes all entries of the section (`foldlM_section`).
-/
namespace TwinScreen.Toml

/-! ## Changes in sequence -/

/-- A change that leaves an entry with the same name, or makes one with this name. -/
def KeepsName (name : String) (change : Option Entry → Option Entry) : Prop :=
  ∀ e e', (∀ x ∈ e, x.1.name = name) → change e = some e' → e'.1.name = name

/-- Two changes of one entry are one change. -/
theorem alter_bind_alter {name : String} {change : Option Entry → Option Entry}
    (hname : KeepsName name change)
    (change' : Option Entry → Option Entry) (entries : List Entry) :
    (alter name change entries).bind (alter name change') =
      alter name (fun e => (change e).bind fun e' => change' (some e')) entries := by
  induction entries with
  | nil =>
    cases h : change none with
    | none => simp [alter, h]
    | some e' => simp [alter, h, hname none e' (by simp) h]
  | cons e others ih =>
    by_cases heq : name = e.1.name
    · cases h : change (some e) with
      | none => simp [alter, heq, h]
      | some e' => simp [alter, ← heq, h, hname (some e) e' (by simp [heq]) h]
    · by_cases hlt : name < e.1.name
      · cases h : change none with
        | none => simp [alter, heq, hlt, h]
        | some e' => simp [alter, heq, hlt, h, hname none e' (by simp) h]
      · cases h : alter name change others with
        | none => simp [alter, heq, hlt, h, ← ih]
        | some altered => simp [alter, heq, hlt, h, ← ih]

theorem alterLast_cons (change : Value → Option Value) (item : Span × Value)
    {others : List (Span × Value)} (h : others ≠ []) :
    alterLast change (item :: others) = (alterLast change others).map (item :: ·) := by
  cases others with
  | nil => exact absurd rfl h
  | cons next more =>
    rw [alterLast]
    · cases alterLast change (next :: more) with
      | none => rfl
      | some altered => rfl
    · simp

theorem alterLast_ne_nil {change : Value → Option Value} {items altered : List (Span × Value)}
    (h : alterLast change items = some altered) : altered ≠ [] := by
  rintro rfl
  cases items with
  | nil => cases h
  | cons item others =>
    cases others with
    | nil =>
      obtain ⟨w, -, hw⟩ := Option.bind_eq_some_iff.mp h
      cases hw
    | cons next more => simp [alterLast_cons] at h

theorem alterLast_bind_alterLast (change change' : Value → Option Value)
    (items : List (Span × Value)) :
    (alterLast change items).bind (alterLast change') =
      alterLast (fun v => (change v).bind change') items := by
  induction items with
  | nil => rfl
  | cons item others ih =>
    by_cases hnil : others = []
    · obtain ⟨span, v⟩ := item
      cases h : change v with
      | none => simp [alterLast, hnil, h]
      | some w => simp [alterLast, hnil, h]
    · rw [alterLast_cons _ _ hnil, alterLast_cons _ _ hnil, ← ih]
      cases h : alterLast change others with
      | none => rfl
      | some altered => exact alterLast_cons _ _ (alterLast_ne_nil h)

/-- A change of tables, which leaves their origins. -/
def KeepsOrigin (change : Value → Option Value) : Prop :=
  ∀ v w, change v = some w →
    ∃ origin before after, v = .table origin before ∧ w = .table origin after

theorem KeepsOrigin.exists_table {change : Value → Option Value} (h : KeepsOrigin change)
    {origin : Origin} {entries : List Entry} {w : Value}
    (hw : change (.table origin entries) = some w) : ∃ after, w = .table origin after := by
  obtain ⟨o, before, after, hbefore, rfl⟩ := h _ _ hw
  obtain ⟨rfl, -⟩ := Value.table.inj hbefore
  exact ⟨after, rfl⟩

namespace Value

theorem alterEntry_keepsOrigin (name : String) (change : Option Entry → Option Entry) :
    KeepsOrigin (alterEntry name change) := by
  intro v w h
  cases v with
  | table origin entries =>
    obtain ⟨altered, -, hw⟩ := Option.map_eq_some_iff.mp h
    exact ⟨origin, entries, altered, rfl, hw.symm⟩
  | _ => cases h

theorem alterEntry_bind_alterEntry {name : String} {change : Option Entry → Option Entry}
    (hname : KeepsName name change)
    (change' : Option Entry → Option Entry) (v : Value) :
    (alterEntry name change v).bind (alterEntry name change') =
      alterEntry name (fun e => (change e).bind fun e' => change' (some e')) v := by
  cases v with
  | table origin entries =>
    simp only [alterEntry, ← alter_bind_alter hname]
    cases alter name change entries with
    | none => rfl
    | some altered => rfl
  | _ => rfl

/-- A change at the end of a long path is a change under its first part. -/
theorem under_append (byDots : Bool) (change : Value → Option Value) (path more : List Key) :
    under byDots change (path ++ more) = under byDots (under byDots change more) path := by
  induction path with
  | nil => rfl
  | cons key path ih =>
    funext v
    rw [List.cons_append, under, under, ih]

/-- Changes further down leave the table itself what it is. -/
theorem under_keepsOrigin {byDots : Bool} {change : Value → Option Value}
    (hkeeps : KeepsOrigin change) (path : List Key) : KeepsOrigin (under byDots change path) := by
  cases path with
  | nil => exact hkeeps
  | cons key path => exact alterEntry_keepsOrigin _ _

theorem onward_keepsName (byDots : Bool) (key : Key) (change : Value → Option Value) :
    KeepsName key.name (onward byDots key change) := by
  intro e e' hname h
  rcases e with _ | ⟨k, span, v⟩
  · obtain ⟨t, -, rfl⟩ := Option.map_eq_some_iff.mp h
    rfl
  · rw [← hname _ rfl]
    cases v with
    | table origin entries =>
      rw [onward] at h
      split at h
      · obtain ⟨t, -, rfl⟩ := Option.map_eq_some_iff.mp h
        rfl
      · cases h
    | list growing items =>
      cases growing with
      | true =>
        obtain ⟨t, -, rfl⟩ := Option.map_eq_some_iff.mp h
        rfl
      | false => cases h
    | _ => cases h

/-- A table that a path led through lets the same path through again. -/
theorem onward_bind_onward {byDots : Bool} (key : Key) {change : Value → Option Value}
    (hkeeps : KeepsOrigin change) (change' : Value → Option Value) :
    (fun e => (onward byDots key change e).bind fun e' => onward byDots key change' (some e')) =
      onward byDots key (fun t => (change t).bind change') := by
  funext e
  rcases e with _ | ⟨k, span, v⟩
  · have hallows : (if byDots = true then Origin.dotted else Origin.implied).allows byDots := by
      cases byDots <;> rfl
    cases h : change (made byDots) with
    | none => simp [onward, h]
    | some w =>
      obtain ⟨after, rfl⟩ := hkeeps.exists_table h
      simp [onward, h, hallows]
  · cases v with
    | table origin entries =>
      by_cases hallows : origin.allows byDots = true
      · cases h : change (table origin entries) with
        | none => simp [onward, hallows, h]
        | some w =>
          obtain ⟨after, rfl⟩ := hkeeps.exists_table h
          simp [onward, hallows, h]
      · simp [onward, hallows]
    | list growing items =>
      cases growing with
      | true =>
        have hitems := alterLast_bind_alterLast change change' items
        cases h : alterLast change items with
        | none => simp [onward, ← hitems, h]
        | some altered => simp [onward, ← hitems, h]
      | false => rfl
    | _ => rfl

/-- Changes at the end of a path are one change there. -/
theorem under_bind_under (byDots : Bool) {change : Value → Option Value}
    (hkeeps : KeepsOrigin change) (change' : Value → Option Value) (path : List Key) (v : Value) :
    (under byDots change path v).bind (under byDots change' path) =
      under byDots (fun t => (change t).bind change') path v := by
  induction path generalizing v with
  | nil => rfl
  | cons key path ih =>
    have hinner : (fun t => (under byDots change path t).bind (under byDots change' path)) =
        under byDots (fun t => (change t).bind change') path := funext ih
    have hname := onward_keepsName byDots key (under byDots change path)
    have hentries :=
      alterEntry_bind_alterEntry hname (onward byDots key (under byDots change' path)) v
    rwa [onward_bind_onward key (under_keepsOrigin hkeeps path), hinner] at hentries

/-! ## Sections -/

theorem assign_nil (t : Value) (key : Key) (span : Span) (v : Value) :
    t.assign [] key span v = alterEntry key.name (free (key, span, v)) t := by
  cases t with
  | table origin entries => rfl
  | _ => rfl

/-- Adds entries to a table, each under a name that is still free. -/
def fill (entries : List Entry) (t : Value) : Option Value :=
  entries.foldlM (fun t e => alterEntry e.1.name (free e) t) t

/-- The entry of a header whose table takes these entries. -/
def filled (key : Key) (span : Span) (entries : List Entry) (e : Option Entry) : Option Entry :=
  (opened key span e).bind fun e => (fill entries e.2.2).map fun t => (e.1, e.2.1, t)

theorem opened_keepsName (key : Key) (span : Span) : KeepsName key.name (opened key span) := by
  intro e e' hname h
  unfold opened at h
  split at h
  · rw [← Option.some.inj h]
  · rw [← Option.some.inj h]
  · cases h

theorem filled_keepsName (key : Key) (span : Span) (entries : List Entry) :
    KeepsName key.name (filled key span entries) := by
  intro e e' hname h
  obtain ⟨x, hx, hfill⟩ := Option.bind_eq_some_iff.mp h
  obtain ⟨t, -, rfl⟩ := Option.map_eq_some_iff.mp hfill
  exact opened_keepsName key span e x hname hx

/-- The last of several entries is added last. -/
theorem fill_concat (entries : List Entry) (e : Entry) (t : Value) :
    fill (entries ++ [e]) t = (fill entries t).bind (alterEntry e.1.name (free e)) := by
  simp [fill]

theorem exists_table_of_fill {entries : List Entry} {origin : Origin} {before : List Entry}
    {w : Value} (h : fill entries (table origin before) = some w) :
    ∃ after, w = table origin after := by
  induction entries generalizing before with
  | nil => exact ⟨before, (Option.some.inj h).symm⟩
  | cons e more ih =>
    obtain ⟨t, ht, hmore⟩ := Option.bind_eq_some_iff.mp h
    obtain ⟨between, rfl⟩ := (alterEntry_keepsOrigin _ _).exists_table ht
    exact ih hmore

/-- An assignment below a header adds one more entry to its table. -/
theorem filled_concat (key : Key) (span : Span) (entries : List Entry) (e : Entry) :
    (fun x => (filled key span entries x).bind fun y =>
      onward false key (alterEntry e.1.name (free e)) (some y)) =
      filled key span (entries ++ [e]) := by
  funext x
  cases hx : opened key span x with
  | none => simp [filled, hx]
  | some y =>
    have hy : ∃ k s inner, y = (k, s, table .header inner) := by
      unfold opened at hx
      split at hx
      · exact ⟨_, _, _, (Option.some.inj hx).symm⟩
      · exact ⟨_, _, _, (Option.some.inj hx).symm⟩
      · cases hx
    obtain ⟨k, s, inner, rfl⟩ := hy
    cases hfill : fill entries (table .header inner) with
    | none => simp [filled, hx, fill_concat, hfill]
    | some w =>
      obtain ⟨after, rfl⟩ := exists_table_of_fill hfill
      simp [filled, hx, fill_concat, hfill, onward, Origin.allows]

end Value

namespace Draft

open Value

theorem add_ofEntry (root : Value) (path : List Key) (e : Entry) :
    add ⟨root, path⟩ (.ofEntry e) =
      (under false (alterEntry e.1.name (free e)) path root).map (⟨·, path⟩) := by
  simp only [Statement.ofEntry, add, assign_nil]
  cases under false (alterEntry e.1.name (free e)) path root with
  | none => rfl
  | some after => rfl

theorem add_table (d : Draft) (path : List Key) (key : Key) (span : Span) :
    add d (.table path key span) =
      (under false (alterEntry key.name (opened key span)) path d.root).map
        (⟨·, path ++ [key]⟩) := by
  simp only [add, openTable]
  cases under false (alterEntry key.name (opened key span)) path d.root with
  | none => rfl
  | some after => rfl

/-- A section is one change of the table that its header is in. -/
theorem foldlM_section (d : Draft) (path : List Key) (key : Key) (span : Span)
    (entries : List Entry) :
    (Statement.table path key span :: entries.map .ofEntry).foldlM add d =
      (under false (alterEntry key.name (filled key span entries)) path d.root).map
        (⟨·, path ++ [key]⟩) := by
  induction entries using List.reverseRecOn with
  | nil =>
    have hnone : filled key span [] = opened key span := by
      funext x
      cases hx : opened key span x <;> simp [filled, fill, hx]
    rw [List.map_nil, List.foldlM_cons, hnone, add_table]
    simp
  | append_singleton entries e ih =>
    have hkeeps := alterEntry_keepsOrigin key.name (filled key span entries)
    have hfused := under_bind_under false hkeeps (under false (alterEntry e.1.name (free e)) [key])
      path d.root
    have hentry : (fun t => (alterEntry key.name (filled key span entries) t).bind
        (under false (alterEntry e.1.name (free e)) [key])) =
          alterEntry key.name (filled key span (entries ++ [e])) := by
      funext t
      rw [← filled_concat]
      exact alterEntry_bind_alterEntry (filled_keepsName key span entries) _ t
    rw [hentry, ← under_append] at hfused
    rw [List.map_append, ← List.cons_append, List.foldlM_append, ih, ← hfused]
    cases under false (alterEntry key.name (filled key span entries)) path d.root with
    | none => rfl
    | some root => simp [add_ofEntry]

end Draft

/-! ## Documents -/

/-- Opens the table of a header with all entries below it. -/
def Value.addTable (parts : List Key × Key) (span : Span) (entries : List Entry) (root : Value) :
    Option Value :=
  under false (alterEntry parts.2.name (filled parts.2 span entries)) parts.1 root

def addSections : List Section → Value → Option Value
  | [], root => some root
  | s :: more, root =>
      let rest := sections more
      (root.addTable (s.parts rest) (s.span rest) (entriesBefore s.entries rest)).bind
        (addSections more)

/-- Statements of sections add the sections as wholes. -/
theorem foldlM_statementsOf (more : List Section) (d : Draft) :
    ((statementsOf more).foldlM Draft.add d).map Draft.root = addSections more d.root := by
  induction more generalizing d with
  | nil => rfl
  | cons s more ih =>
    have hsection := Draft.foldlM_section d (s.parts (sections more)).1 (s.parts (sections more)).2
      (s.span (sections more)) (entriesBefore s.entries (sections more))
    rw [statementsOf, Section.statements, Section.header, List.foldlM_append, hsection,
      addSections, Value.addTable]
    cases Value.under false _ (s.parts (sections more)).1 d.root with
    | none => rfl
    | some root => exact ih _

/-- The table of a plain document grows section by section. -/
theorem parse?_document (first : Section) (more : List Section) :
    parse? (document first more) = addSections (first :: more) (.table .header []) := by
  have hdraft := foldlM_statementsOf (first :: more) Draft.empty
  rw [parse?, statements?_document]
  exact hdraft

end TwinScreen.Toml
