import TwinScreen.Proofs.Toml.Throughout

/-!
# Putting a value at the end of a path

Headers and the lines below them change one entry at the end of a path. If only tables stand on the
path that a header may lead through, the change succeeds as it does on the entry; the tables above
it stay or are made, and nothing else in the document changes (`exists_under`).
-/
namespace TwinScreen.Toml

def names (path : List Key) : List String := path.map Key.name

namespace Value

/-- How the table at a path came to be; one that is missing would be implied. -/
def originAt (v : Value) (path : List String) : Origin :=
  match v.at? path with
  | some (table origin _) => origin
  | _ => .implied

/-- What a name on the path of a header leads to, or the table that is made there. -/
def inner (name : String) (v : Value) : Value := (v.at? [name]).getD (made false)

theorem at?_inner {name : String} {path : List String} (h : path ≠ []) (v : Value) :
    v.at? (name :: path) = (v.inner name).at? path := by
  have hpath : v.at? (name :: path) = (v.at? [name]).bind (at? path) := at?_append [name] path v
  rw [hpath, inner]
  cases v.at? [name] with
  | some w => rfl
  | none =>
    obtain ⟨m, more, rfl⟩ := List.exists_cons_of_ne_nil h
    rfl

theorem originAt_inner (name : String) (path : List String) (v : Value) :
    v.originAt (name :: path) = (v.inner name).originAt path := by
  cases path with
  | nil =>
    rw [originAt, originAt, inner]
    cases v.at? [name] with
    | none => rfl
    | some w => rfl
  | cons m more => rw [originAt, originAt, at?_inner (by simp)]

/-- A value has been put at the end of a path. The tables above it are still there, or have been
made, and elsewhere nothing has changed. -/
structure Grafted (path : List String) (w before after : Value) : Prop where
  at_path : after.at? path = some w
  above : ∀ q, q <+: path → q ≠ path →
    ∃ entries, after.at? q = some (.table (before.originAt q) entries)
  apart : ∀ q, ¬ path <+: q → ¬ q <+: path → after.at? q = before.at? q

theorem Grafted.nil (w before : Value) : Grafted [] w before w where
  at_path := rfl
  above _ hq hne := absurd (List.prefix_nil.mp hq) hne
  apart _ hq := absurd (List.nil_prefix) hq

/-- What is put below an entry is put below its table. -/
theorem Grafted.cons {name : String} {path : List String} {w : Value} {origin : Origin}
    {entries altered : List Entry} {e : Entry} (hself : named? name altered = some e)
    (hothers : ∀ m ≠ name, named? m altered = named? m entries)
    (h : Grafted path w ((table origin entries).inner name) e.2.2) :
    Grafted (name :: path) w (table origin entries) (table origin altered) where
  at_path := by rw [at?_table, hself, Option.bind_some, h.at_path]
  above q hq hne := by
    cases q with
    | nil => exact ⟨altered, rfl⟩
    | cons m q =>
      obtain ⟨rfl, hbelow⟩ := List.cons_prefix_cons.mp hq
      rw [at?_table, hself, Option.bind_some, originAt_inner]
      exact h.above q hbelow fun heq => hne (by rw [heq])
  apart q hbelow habove := by
    cases q with
    | nil => exact absurd List.nil_prefix habove
    | cons m q =>
      by_cases hm : m = name
      · subst hm
        simp only [List.cons_prefix_cons, true_and] at hbelow habove
        have hne : q ≠ [] := by
          rintro rfl
          exact habove List.nil_prefix
        rw [at?_table, hself, Option.bind_some, h.apart q hbelow habove, at?_inner hne]
      · rw [at?_table, at?_table, hothers m hm]

/-- Only tables that a header may lead through stand on the path. -/
def Leads (path : List String) (v : Value) : Prop :=
  ∀ q, q <+: path → ∀ w, v.at? q = some w →
    ∃ origin entries, w = table origin entries ∧ origin.allows false

theorem Leads.inner {name : String} {path : List String} {v : Value}
    (h : Leads (name :: path) v) : Leads path (v.inner name) := by
  intro q hq w hw
  cases q with
  | nil =>
    obtain rfl := Option.some.inj hw
    rw [Value.inner]
    cases hname : v.at? [name] with
    | none => exact ⟨.implied, [], rfl, rfl⟩
    | some x => exact h [name] (List.cons_prefix_cons.mpr ⟨rfl, List.nil_prefix⟩) x hname
  | cons m q =>
    refine h (name :: m :: q) (List.cons_prefix_cons.mpr ⟨rfl, hq⟩) w ?_
    rw [at?_inner (by simp), hw]

theorem Throughout.inner {name : String} {v : Value} (h : v.Throughout Sorted) :
    (v.inner name).Throughout Sorted := by
  cases v with
  | table origin entries =>
    rw [Value.inner, at?_table]
    cases hentry : named? name entries with
    | none => exact .table List.Pairwise.nil (by simp)
    | some e => exact h.entries e (mem_of_named? hentry)
  | _ => exact .table List.Pairwise.nil (by simp)

/-- The table that a name leads to is changed where it stands. -/
theorem exists_onward {key : Key} {change : Value → Option Value} {origin : Origin}
    {entries : List Entry} {t : Value} (hleads : Leads [key.name] (table origin entries))
    (h : change ((table origin entries).inner key.name) = some t) :
    ∃ e, onward false key change (named? key.name entries) = some e ∧ e.1.name = key.name ∧
      e.2.2 = t := by
  rw [inner, at?_table] at h
  cases hentry : named? key.name entries with
  | none =>
    rw [hentry] at h
    exact ⟨(key, key.span, t), Option.map_eq_some_iff.mpr ⟨t, h, rfl⟩, rfl, rfl⟩
  | some e =>
    rw [hentry] at h
    obtain ⟨k, span, v⟩ := e
    obtain ⟨o, inside, rfl, hallows⟩ :=
      hleads [key.name] (List.prefix_refl _) v (by rw [at?_table, hentry]; rfl)
    have hname : k.name = key.name := name_of_named? hentry
    exact ⟨(k, span, t), (if_pos hallows).trans (Option.map_eq_some_iff.mpr ⟨t, h, rfl⟩),
      hname, rfl⟩

/-- An entry is changed at the end of a path that leads there. -/
theorem exists_under {change : Option Entry → Option Entry} {w : Value} (path : List Key)
    (key : Key) {v : Value} (hsorted : v.Throughout Sorted) (hleads : Leads (names path) v)
    (hchange : ∀ e, e.map (·.2.2) = v.at? (names path ++ [key.name]) →
      ∃ e', change e = some e' ∧ e'.1.name = key.name ∧ e'.2.2 = w) :
    ∃ after, under false (alterEntry key.name change) path v = some after ∧
      Grafted (names path ++ [key.name]) w v after := by
  -- one name of the path after the other: each is a change of one entry of one table
  induction path generalizing v with
  | nil =>
    obtain ⟨origin, entries, rfl, -⟩ := hleads [] List.nil_prefix v rfl
    obtain ⟨e, he, hname, rfl⟩ := hchange (named? key.name entries) (by
      rw [names, List.map_nil, List.nil_append, at?_table]
      cases named? key.name entries <;> rfl)
    obtain ⟨altered, halter, hself, hothers⟩ := exists_alter hsorted.holds he hname
    exact ⟨table origin altered, Option.map_eq_some_iff.mpr ⟨altered, halter, rfl⟩,
      Grafted.cons hself hothers (Grafted.nil _ _)⟩
  | cons k path ih =>
    obtain ⟨origin, entries, rfl, -⟩ := hleads [] List.nil_prefix v rfl
    have hnames : names (k :: path) = k.name :: names path := rfl
    rw [hnames] at hleads hchange ⊢
    obtain ⟨t, ht, hgrafted⟩ := ih (Throughout.inner hsorted) hleads.inner fun e he =>
      hchange e (by rw [he, List.cons_append, at?_inner (by simp)])
    have hfirst : Leads [k.name] (table origin entries) := fun q hq =>
      hleads q (hq.trans (List.cons_prefix_cons.mpr ⟨rfl, List.nil_prefix⟩))
    obtain ⟨e, he, hname, rfl⟩ := exists_onward hfirst ht
    obtain ⟨altered, halter, hself, hothers⟩ := exists_alter hsorted.holds he hname
    exact ⟨table origin altered, Option.map_eq_some_iff.mpr ⟨altered, halter, rfl⟩,
      Grafted.cons hself hothers hgrafted⟩

/-- Where nothing below the end of the path differs, nothing has changed but above it. -/
theorem Grafted.elsewhere {path : List String} {w before after : Value}
    (h : Grafted path w before after) (hbelow : ∀ r ≠ [], w.at? r = before.at? (path ++ r))
    {q : List String} (hq : ¬ q <+: path) : after.at? q = before.at? q := by
  by_cases hunder : path <+: q
  · obtain ⟨r, rfl⟩ := hunder
    have hne : r ≠ [] := by
      rintro rfl
      exact hq (by simp)
    rw [at?_append_of h.at_path, hbelow r hne]
  · exact h.apart q hunder hq

theorem IsLeaf.at?_eq_none {v : Value} (h : v.IsLeaf) {q : List String} (hq : q ≠ []) :
    v.at? q = none := by
  obtain ⟨m, more, rfl⟩ := List.exists_cons_of_ne_nil hq
  cases v with
  | table _ _ => exact h.elim
  | _ => rfl

end Value

end TwinScreen.Toml
