import TwinScreen.Proofs.Toml.Lookup

/-!
# What holds of all values in a document

A document grows from what its statements assign: entries are added and changed, tables opened and
lists prolonged. What holds of all values that are read, and of tables as they change, holds of all
values in the document (`Value.Lasting`). So the names of every table ascend (`parse?_sorted`).
-/
namespace TwinScreen.Toml

/-! ## What is said of all values inside -/

namespace Value

/-- A value without values inside. -/
def IsLeaf : Value → Prop
  | list _ _ | table _ _ => False
  | _ => True

/-- Something holds of a value and of all values inside. -/
inductive Throughout (p : Value → Prop) : Value → Prop where
  | leaf {v : Value} (hleaf : v.IsLeaf) (hv : p v) : Throughout p v
  | list {growing : Bool} {items : List (Span × Value)} (hv : p (.list growing items))
      (hitems : ∀ item ∈ items, Throughout p item.2) : Throughout p (.list growing items)
  | table {origin : Origin} {entries : List Entry} (hv : p (.table origin entries))
      (hentries : ∀ e ∈ entries, Throughout p e.2.2) : Throughout p (.table origin entries)

/-- Changes that a document makes while it is read do not end this: it holds of lists whatever
their items are, and of tables whatever their origin is, also after a change of an entry. -/
structure Lasting (p : Value → Prop) : Prop where
  list : ∀ growing items, p (.list growing items)
  empty : ∀ origin, p (.table origin [])
  reopened : ∀ origin origin' entries, p (.table origin entries) → p (.table origin' entries)
  altered : ∀ origin entries name change altered, p (.table origin entries) →
    KeepsName name change → alter name change entries = some altered → p (.table origin altered)

variable {p : Value → Prop} {v w : Value}

theorem Throughout.holds (h : v.Throughout p) : p v := by
  cases h with
  | leaf _ hv => exact hv
  | list hv _ => exact hv
  | table hv _ => exact hv

theorem IsLeaf.throughout_iff (h : v.IsLeaf) : v.Throughout p ↔ p v :=
  ⟨Throughout.holds, .leaf h⟩

theorem Throughout.entries {origin : Origin} {entries : List Entry}
    (h : (Value.table origin entries).Throughout p) : ∀ e ∈ entries, e.2.2.Throughout p := by
  cases h with
  | leaf hleaf _ => exact hleaf.elim
  | table _ hentries => exact hentries

theorem Throughout.items {growing : Bool} {items : List (Span × Value)}
    (h : (Value.list growing items).Throughout p) : ∀ item ∈ items, item.2.Throughout p := by
  cases h with
  | leaf hleaf _ => exact hleaf.elim
  | list _ hitems => exact hitems

/-- What holds throughout a document holds at the end of each path. -/
theorem Throughout.at? (h : v.Throughout p) {path : List String} (hw : v.at? path = some w) :
    w.Throughout p := by
  induction path generalizing v with
  | nil => rwa [← Option.some.inj hw]
  | cons name path ih =>
    obtain ⟨origin, entries, rfl⟩ := exists_table_of_at? hw
    rw [at?_table] at hw
    obtain ⟨e, he, hpath⟩ := Option.bind_eq_some_iff.mp hw
    exact ih (h.entries e (mem_of_named? he)) hpath

/-- A change that leaves something true of all values inside. -/
def Keeps (p : Value → Prop) (change : Value → Option Value) : Prop :=
  ∀ v w, v.Throughout p → change v = some w → w.Throughout p

/-- A change of an entry that leaves something true of all values inside. -/
def KeepsEntry (p : Value → Prop) (change : Option Entry → Option Entry) : Prop :=
  ∀ e e', (∀ x ∈ e, x.2.2.Throughout p) → change e = some e' → e'.2.2.Throughout p

theorem Lasting.alterEntry_keeps (hp : Lasting p) {name : String}
    {change : Option Entry → Option Entry} (hname : KeepsName name change)
    (hchange : KeepsEntry p change) : Keeps p (alterEntry name change) := by
  intro v w h hw
  cases v with
  | table origin entries =>
    obtain ⟨altered, halter, rfl⟩ := Option.map_eq_some_iff.mp hw
    refine .table (hp.altered _ _ _ _ _ h.holds hname halter) fun e he => ?_
    rcases mem_alter halter he with hold | ⟨before, hbefore, hafter⟩
    · exact h.entries e hold
    · exact hchange before e (fun x hx => h.entries x (hbefore x hx).1) hafter
  | _ => cases hw

theorem alterLast_keeps {change : Value → Option Value} (hchange : Keeps p change)
    {items altered : List (Span × Value)} (h : ∀ item ∈ items, item.2.Throughout p)
    (halter : alterLast change items = some altered) : ∀ item ∈ altered, item.2.Throughout p := by
  induction items generalizing altered with
  | nil => cases halter
  | cons item others ih =>
    by_cases hnil : others = []
    · subst hnil
      obtain ⟨w, hw, haltered⟩ := Option.bind_eq_some_iff.mp halter
      rw [← Option.some.inj haltered]
      simpa using hchange _ _ (h item List.mem_cons_self) hw
    · rw [alterLast_cons _ _ hnil] at halter
      obtain ⟨after, hafter, rfl⟩ := Option.map_eq_some_iff.mp halter
      exact List.forall_mem_cons.mpr ⟨h item List.mem_cons_self,
        ih (fun x hx => h x (List.mem_cons_of_mem _ hx)) hafter⟩

theorem Lasting.onward_keeps (hp : Lasting p) (byDots : Bool) (key : Key)
    {change : Value → Option Value} (hchange : Keeps p change) :
    KeepsEntry p (onward byDots key change) := by
  intro e e' h he'
  rcases e with _ | ⟨k, span, v⟩
  · obtain ⟨t, ht, rfl⟩ := Option.map_eq_some_iff.mp he'
    exact hchange _ _ (.table (hp.empty _) (by simp)) ht
  · have hv : v.Throughout p := h _ rfl
    cases v with
    | table origin entries =>
      rw [onward] at he'
      split at he'
      · obtain ⟨t, ht, rfl⟩ := Option.map_eq_some_iff.mp he'
        exact hchange _ _ hv ht
      · cases he'
    | list growing items =>
      cases growing with
      | true =>
        obtain ⟨after, hafter, rfl⟩ := Option.map_eq_some_iff.mp he'
        exact .list (hp.list _ _) (alterLast_keeps hchange hv.items hafter)
      | false => cases he'
    | _ => cases he'

/-- A change at the end of a path does no harm on the way to it. -/
theorem Lasting.under_keeps (hp : Lasting p) (byDots : Bool) {change : Value → Option Value}
    (hchange : Keeps p change) (path : List Key) : Keeps p (under byDots change path) := by
  induction path with
  | nil => exact hchange
  | cons key path ih =>
    exact hp.alterEntry_keeps (onward_keepsName byDots key _) (hp.onward_keeps byDots key ih)

theorem free_keepsName (e : Entry) : KeepsName e.1.name (free e) := by
  intro before after _ h
  cases before with
  | none => rw [← Option.some.inj h]
  | some x => cases h

theorem free_keeps {e : Entry} (he : e.2.2.Throughout p) : KeepsEntry p (free e) := by
  intro before after _ h
  cases before with
  | none => rwa [← Option.some.inj h]
  | some x => cases h

theorem Lasting.opened_keeps (hp : Lasting p) (key : Key) (span : Span) :
    KeepsEntry p (opened key span) := by
  intro e e' he h
  unfold opened at h
  split at h
  · rw [← Option.some.inj h]
    exact .table (hp.empty _) (by simp)
  · have ht := he _ rfl
    rw [← Option.some.inj h]
    exact .table (hp.reopened _ _ _ ht.holds) ht.entries
  · cases h

theorem Lasting.assign_keeps (hp : Lasting p) (path : List Key) (key : Key) (span : Span)
    (hv : v.Throughout p) : Keeps p fun t => t.assign path key span v := by
  refine fun t t' => hp.under_keeps true ?_ path t t'
  intro t t' ht h
  dsimp only at h
  split at h
  · exact hp.alterEntry_keeps (free_keepsName (key, span, v)) (free_keeps hv) _ _ ht h
  · cases h

theorem Lasting.openTable_keeps (hp : Lasting p) (path : List Key) (key : Key) (span : Span) :
    Keeps p fun t => t.openTable path key span := fun t t' =>
  hp.under_keeps false
    (hp.alterEntry_keeps (opened_keepsName key span) (hp.opened_keeps key span)) path t t'

theorem Lasting.openItem_keeps (hp : Lasting p) (path : List Key) (key : Key) (span : Span) :
    Keeps p fun t => t.openItem path key span := by
  have hitem : (Value.table .header []).Throughout p := .table (hp.empty _) (by simp)
  refine fun t t' => hp.under_keeps false (hp.alterEntry_keeps ?_ ?_) path t t'
  · intro e e' hname h
    dsimp only at h
    split at h
    · rw [← Option.some.inj h]
    · have hkey := hname _ rfl
      rw [← Option.some.inj h]
      exact hkey
    · cases h
  · intro e e' he h
    dsimp only at h
    split at h
    · rw [← Option.some.inj h]
      exact .list (hp.list _ _) (by simpa using hitem)
    · have hlist := he _ rfl
      rw [← Option.some.inj h]
      refine .list (hp.list _ _) fun item hmem => ?_
      rcases List.mem_append.mp hmem with hold | hnew
      · exact hlist.items item hold
      · rw [List.mem_singleton.mp hnew]
        exact hitem
    · cases h

end Value

/-! ## Statements -/

/-- Something holds of all values inside the value that a statement assigns. -/
def Statement.Assigns (p : Value → Prop) : Statement → Prop
  | .assign _ _ _ v => v.Throughout p
  | .table _ _ _ | .item _ _ _ => True

/-- A statement keeps what holds of its value. -/
theorem Draft.add_keeps {p : Value → Prop} (hp : Value.Lasting p) {d d' : Draft} {s : Statement}
    (hs : s.Assigns p) (hd : d.root.Throughout p) (h : d.add s = some d') :
    d'.root.Throughout p := by
  cases s with
  | assign path key span v =>
    obtain ⟨root, hroot, hd'⟩ := Option.bind_eq_some_iff.mp h
    rw [← Option.some.inj hd']
    exact hp.under_keeps false (hp.assign_keeps path key span hs) d.current _ _ hd hroot
  | table path key span =>
    obtain ⟨root, hroot, hd'⟩ := Option.bind_eq_some_iff.mp h
    rw [← Option.some.inj hd']
    exact hp.openTable_keeps path key span _ _ hd hroot
  | item path key span =>
    obtain ⟨root, hroot, hd'⟩ := Option.bind_eq_some_iff.mp h
    rw [← Option.some.inj hd']
    exact hp.openItem_keeps path key span _ _ hd hroot

/-- All statements of a document keep it, by induction. -/
theorem Draft.foldlM_keeps {p : Value → Prop} (hp : Value.Lasting p) {statements : List Statement}
    {d d' : Draft} (hs : ∀ s ∈ statements, s.Assigns p) (hd : d.root.Throughout p)
    (h : statements.foldlM Draft.add d = some d') : d'.root.Throughout p := by
  induction statements generalizing d with
  | nil =>
    rw [← Option.some.inj h]
    exact hd
  | cons s more ih =>
    obtain ⟨next, hnext, hmore⟩ := Option.bind_eq_some_iff.mp h
    obtain ⟨hfirst, hrest⟩ := List.forall_mem_cons.mp hs
    exact ih hrest (add_keeps hp hfirst hd hnext) hmore

/-- What holds of all values that are assigned holds of all values in the document. -/
theorem Value.ofStatements?_throughout {p : Value → Prop} (hp : Value.Lasting p)
    {statements : List Statement} {v : Value} (hs : ∀ s ∈ statements, s.Assigns p)
    (h : Value.ofStatements? statements = some v) : v.Throughout p := by
  obtain ⟨d, hd, rfl⟩ := Option.map_eq_some_iff.mp h
  exact Draft.foldlM_keeps hp hs (.table (hp.empty _) (by simp)) hd

/-! ## What is read -/

namespace Value

theorem isLeaf_ofWhole (base : Nat) (negative : Bool) (s : List Char) :
    (ofWhole base negative s).IsLeaf := by
  unfold ofWhole
  split <;> trivial

theorem isLeaf_of_ofDecimal? {s : List Char} {v : Value} (h : ofDecimal? s = some v) :
    v.IsLeaf := by
  rw [ofDecimal?] at h
  split at h
  · cases h
  · obtain ⟨plain, -, hv⟩ := Option.bind_eq_some_iff.mp h
    rw [← Option.some.inj hv]
    exact isLeaf_ofWhole _ _ _

theorem isLeaf_of_ofBased? {base : Nat} {s : List Char} {v : Value}
    (h : ofBased? base s = some v) : v.IsLeaf := by
  obtain ⟨plain, -, h⟩ := Option.bind_eq_some_iff.mp h
  obtain ⟨digits, -, hv⟩ := Option.bind_eq_some_iff.mp h
  rw [← Option.some.inj hv]
  exact isLeaf_ofWhole _ _ _

theorem isLeaf_of_ofNumber? {s : List Char} {v : Value} (h : ofNumber? s = some v) :
    v.IsLeaf := by
  rw [ofNumber?] at h
  split at h
  · exact isLeaf_of_ofDecimal? h
  · split at h
    · split at h
      · rw [← Option.some.inj h]
        trivial
      · cases h
    · split at h
      · obtain ⟨x, -, rfl⟩ := Option.map_eq_some_iff.mp h
        trivial
      · split at h
        · exact isLeaf_of_ofDecimal? h
        · cases h

/-- Values that are written without brackets have none inside. -/
theorem isLeaf_of_ofWritten? {s : List Char} {v : Value} (h : ofWritten? s = some v) :
    v.IsLeaf := by
  have hleaf {w : Value} (hv : some w = some v) (hw : w.IsLeaf) : v.IsLeaf :=
    Option.some.inj hv ▸ hw
  rw [ofWritten?] at h
  dsimp only at h
  split at h
  · exact hleaf h trivial
  · split at h
    · exact hleaf h trivial
    · split at h
      · exact hleaf h trivial
      · split at h
        · exact hleaf h trivial
        · split at h
          · cases h
          · split at h
            · exact isLeaf_of_ofBased? h
            · exact isLeaf_of_ofNumber? h
          · exact isLeaf_of_ofNumber? h

end Value

namespace Reader

variable {p : Value → Prop}

theorem simpleValue_isLeaf : Yields simpleValue Value.IsLeaf := by
  refine (yields_any _).bind fun c _ => ?_
  split
  · exact (yields_any _).bind fun _ _ => yields_pure trivial
  · exact (yields_any _).bind fun _ _ => yields_pure trivial
  · refine (yields_any _).bind fun _ _ => (yields_any _).bind fun written _ => ?_
    split
    · rename_i v hv
      exact yields_pure (Value.isLeaf_of_ofWritten? hv)
    · exact yields_failure _

theorem list_throughout (hp : Value.Lasting p) {item : Reader Value}
    (hitem : Yields item fun v => v.Throughout p) : Yields (list item) fun v => v.Throughout p := by
  refine (yields_any _).bind fun _ _ => yields_loop
    (P := fun items => ∀ item ∈ items, item.2.Throughout p) ?_ (by simp)
  intro items hitems
  refine (yields_any _).bind fun _ _ => (yields_any _).bind fun closed _ => ?_
  split
  · exact yields_pure (.list (hp.list _ _) hitems)
  · refine hitem.spanned.bind fun v hv => ?_
    have hmore : ∀ item ∈ items ++ [v], item.2.Throughout p :=
      List.forall_mem_append.mpr ⟨hitems, List.forall_mem_singleton.mpr hv⟩
    refine (yields_any _).bind fun _ _ => (yields_any _).bind fun again _ => ?_
    split
    · exact yields_pure hmore
    · exact (yields_any _).bind fun _ _ => yields_pure (.list (hp.list _ _) hmore)

theorem assignment_throughout (space : Reader Unit) {value : Reader Value}
    (hvalue : Yields value fun v => v.Throughout p) :
    Yields (assignment space value) fun a => a.2.2.2.Throughout p := by
  refine (yields_any _).bind fun _ _ => (yields_any _).bind fun _ _ => ?_
  refine (yields_any _).bind fun _ _ => (yields_any _).bind fun _ _ => ?_
  exact hvalue.spanned.bind fun _ hv => yields_pure hv

theorem inlineTable_throughout (hp : Value.Lasting p) {value : Reader Value}
    (hvalue : Yields value fun v => v.Throughout p) :
    Yields (inlineTable value) fun v => v.Throughout p := by
  refine (yields_any _).bind fun _ _ => yields_loop (P := fun t => t.Throughout p) ?_
    (.table (hp.empty _) (by simp))
  intro t ht
  refine (yields_any _).bind fun _ _ => (yields_any _).bind fun closed _ => ?_
  split
  · exact yields_pure ht
  · refine (assignment_throughout gap hvalue).bind fun ⟨path, key, span, v⟩ hv => ?_
    dsimp only
    split
    · exact yields_failure _
    · rename_i t' hassign
      have ht' : t'.Throughout p := hp.assign_keeps _ _ _ hv _ _ ht hassign
      refine (yields_any _).bind fun _ _ => (yields_any _).bind fun again _ => ?_
      split
      · exact yields_pure ht'
      · exact (yields_any _).bind fun _ _ => yields_pure ht'

/-- What holds of all values without values inside, and of tables as they grow, holds of what is
read. -/
theorem value_throughout (hp : Value.Lasting p) (hleaf : ∀ v : Value, v.IsLeaf → p v)
    (depth : Nat) : Yields (value depth) fun v => v.Throughout p := by
  have hsimple : Yields simpleValue fun v => v.Throughout p := fun s v t h =>
    have hv := simpleValue_isLeaf s v t h
    .leaf hv (hleaf v hv)
  induction depth with
  | zero => exact hsimple
  | succ depth ih =>
    refine (yields_any _).bind fun c _ => ?_
    split
    · exact list_throughout hp ih
    · exact inlineTable_throughout hp ih
    · exact hsimple

theorem statement_assigns (hp : Value.Lasting p) (hleaf : ∀ v : Value, v.IsLeaf → p v) :
    Yields statement (Statement.Assigns p) := by
  have hheader : Yields header (Statement.Assigns p) := by
    refine (yields_any _).bind fun a _ => yields_pure ?_
    split <;> trivial
  refine (yields_any _).bind fun c _ => ?_
  split
  · exact hheader.bind fun s hs => (yields_any _).bind fun _ _ => yields_pure hs
  · refine (assignment_throughout _ (value_throughout hp hleaf depthLimit)).bind fun a ha => ?_
    exact Yields.bind (P := Statement.Assigns p) (yields_pure ha) fun s hs =>
      (yields_any _).bind fun _ _ => yields_pure hs

/-- Every statement that is read assigns such a value. -/
theorem statements_assign (hp : Value.Lasting p) (hleaf : ∀ v : Value, v.IsLeaf → p v) :
    Yields statements fun list => ∀ s ∈ list, s.Assigns p := by
  refine yields_loop (P := fun before => ∀ s ∈ before, s.Assigns p) ?_ (by simp)
  intro before hbefore
  refine (yields_any _).bind fun _ _ => (yields_any _).bind fun c _ => ?_
  split
  · exact yields_pure hbefore
  · exact (yields_any _).bind fun _ _ => yields_pure hbefore
  · exact (yields_any _).bind fun _ _ => yields_pure hbefore
  · exact (yields_any _).bind fun _ _ => yields_pure hbefore
  · refine (statement_assigns hp hleaf).bind fun s hs => yields_pure ?_
    simpa [Round.Holds, or_imp, forall_and] using ⟨hbefore, hs⟩

end Reader

/-! ## Documents -/

/-- The names of a table ascend. -/
def Value.Sorted : Value → Prop
  | table _ entries => Ascending entries
  | _ => True

theorem Value.lasting_sorted : Value.Lasting Value.Sorted where
  list _ _ := trivial
  empty _ := List.Pairwise.nil
  reopened _ _ _ h := h
  altered _ _ _ _ _ h hname halter := alter_ascending hname h halter

/-- The names of every table in a document ascend. -/
theorem parse?_sorted {text : List Char} {v : Value} (h : parse? text = some v) :
    v.Throughout Value.Sorted := by
  have hleaf (v : Value) (hv : v.IsLeaf) : v.Sorted := by
    cases v with
    | table _ _ => exact hv.elim
    | _ => trivial
  obtain ⟨statements, hstatements, hv⟩ := Option.bind_eq_some_iff.mp h
  refine Value.ofStatements?_throughout Value.lasting_sorted ?_ hv
  obtain ⟨⟨list, rest⟩, hread, rfl⟩ := Option.map_eq_some_iff.mp hstatements
  exact Reader.statements_assign Value.lasting_sorted hleaf _ _ _ hread

end TwinScreen.Toml
