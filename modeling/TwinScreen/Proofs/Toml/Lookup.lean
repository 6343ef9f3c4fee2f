import Mathlib.Data.String.Basic
import TwinScreen.Proofs.Toml.Tables

/-!
# What stands in a table

Where the entries of a table ascend in their names, a name leads to one entry at most, and a change
of the entry with a name is seen at this name and nowhere else (`exists_alter`). A path of names
leads from a table through tables to what stands at its end.
-/
namespace TwinScreen.Toml

/-! ## Entries -/

def named? (name : String) (entries : List Entry) : Option Entry :=
  entries.find? fun e => e.1.name == name

def Ascending (entries : List Entry) : Prop := entries.Pairwise fun e f => e.1.name < f.1.name

section Entries

variable {name : String} {entries altered : List Entry} {e : Entry}

@[simp] theorem named?_nil (name : String) : named? name [] = none := rfl

theorem named?_cons_self (e : Entry) (others : List Entry) :
    named? e.1.name (e :: others) = some e := by
  simp [named?]

theorem named?_cons_ne (h : e.1.name ≠ name) (others : List Entry) :
    named? name (e :: others) = named? name others := by
  simp [named?, h]

theorem name_of_named? (h : named? name entries = some e) : e.1.name = name := by
  simpa using List.find?_some h

theorem mem_of_named? (h : named? name entries = some e) : e ∈ entries :=
  List.mem_of_find?_eq_some h

theorem named?_eq_none (h : ∀ e ∈ entries, e.1.name ≠ name) : named? name entries = none := by
  simpa [named?] using h

/-- Names that come later in a table are not the name of its first entry. -/
theorem Ascending.named?_others (h : Ascending (e :: entries)) (hname : name ≤ e.1.name) :
    named? name entries = none :=
  named?_eq_none fun f hf => (lt_of_le_of_lt hname ((List.pairwise_cons.mp h).1 f hf)).ne'

/-- The name of an entry leads to this entry. -/
theorem Ascending.named?_of_mem (h : Ascending entries) (hmem : e ∈ entries) :
    named? e.1.name entries = some e := by
  induction entries with
  | nil => cases hmem
  | cons first others ih =>
    rcases List.mem_cons.mp hmem with rfl | hothers
    · exact named?_cons_self e others
    · have hless := (List.pairwise_cons.mp h).1 e hothers
      rw [named?_cons_ne hless.ne, ih h.of_cons hothers]

/-- A change of the entry with a name succeeds on a table as it does on the entry, and it is seen at
this name only. -/
theorem exists_alter {change : Option Entry → Option Entry} (h : Ascending entries)
    (hchange : change (named? name entries) = some e) (hname : e.1.name = name) :
    ∃ altered, alter name change entries = some altered ∧ named? name altered = some e ∧
      ∀ other ≠ name, named? other altered = named? other entries := by
  induction entries with
  | nil =>
    rw [named?_nil] at hchange
    refine ⟨[e], by simp [alter, hchange], by simp [named?, hname], fun other hother => ?_⟩
    rw [named?_cons_ne (by rw [hname]; exact hother.symm)]
  | cons first others ih =>
    by_cases heq : name = first.1.name
    · subst heq
      rw [named?_cons_self] at hchange
      refine ⟨e :: others, by simp [alter, hchange], by simp [named?, hname],
        fun other hother => ?_⟩
      rw [named?_cons_ne (by rw [hname]; exact hother.symm), named?_cons_ne hother.symm]
    · by_cases hless : name < first.1.name
      · rw [named?_cons_ne (Ne.symm heq), h.named?_others hless.le] at hchange
        refine ⟨e :: first :: others, by simp [alter, heq, hless, hchange],
          by simp [named?, hname], fun other hother => ?_⟩
        rw [named?_cons_ne (by rw [hname]; exact hother.symm)]
      · rw [named?_cons_ne (Ne.symm heq)] at hchange
        obtain ⟨altered, halter, hself, hothers⟩ := ih h.of_cons hchange
        refine ⟨first :: altered, by simp [alter, heq, hless, halter],
          by rw [named?_cons_ne (Ne.symm heq), hself], fun other hother => ?_⟩
        by_cases hfirst : first.1.name = other
        · rw [← hfirst, named?_cons_self, named?_cons_self]
        · rw [named?_cons_ne hfirst, named?_cons_ne hfirst, hothers other hother]

/-- An entry of the changed table is an old one or the result of the change. -/
theorem mem_alter {change : Option Entry → Option Entry}
    (h : alter name change entries = some altered) (hmem : e ∈ altered) :
    e ∈ entries ∨ ∃ before, (∀ x ∈ before, x ∈ entries ∧ x.1.name = name) ∧
      change before = some e := by
  induction entries generalizing altered with
  | nil =>
    obtain ⟨made, hmade, haltered⟩ := Option.bind_eq_some_iff.mp h
    obtain rfl : [made] = altered := Option.some.inj haltered
    exact .inr ⟨none, by simp, by rw [hmade, List.mem_singleton.mp hmem]⟩
  | cons first others ih =>
    rw [alter] at h
    split at h
    · rename_i heq
      obtain ⟨made, hmade, haltered⟩ := Option.bind_eq_some_iff.mp h
      obtain rfl : made :: others = altered := Option.some.inj haltered
      rcases List.mem_cons.mp hmem with rfl | hothers
      · exact .inr ⟨some first, by simp [heq], hmade⟩
      · exact .inl (List.mem_cons_of_mem _ hothers)
    · split at h
      · obtain ⟨made, hmade, haltered⟩ := Option.bind_eq_some_iff.mp h
        obtain rfl : made :: first :: others = altered := Option.some.inj haltered
        rcases List.mem_cons.mp hmem with rfl | hothers
        · exact .inr ⟨none, by simp, hmade⟩
        · exact .inl hothers
      · obtain ⟨after, hafter, haltered⟩ := Option.bind_eq_some_iff.mp h
        obtain rfl : first :: after = altered := Option.some.inj haltered
        rcases List.mem_cons.mp hmem with rfl | hothers
        · exact .inl List.mem_cons_self
        · rcases ih hafter hothers with hold | ⟨before, hbefore, hchange⟩
          · exact .inl (List.mem_cons_of_mem _ hold)
          · exact .inr ⟨before, fun x hx =>
              ⟨List.mem_cons_of_mem _ (hbefore x hx).1, (hbefore x hx).2⟩, hchange⟩

/-- A changed table is still sorted. -/
theorem alter_ascending {change : Option Entry → Option Entry} (hname : KeepsName name change)
    (h : Ascending entries) (halter : alter name change entries = some altered) :
    Ascending altered := by
  induction entries generalizing altered with
  | nil =>
    obtain ⟨made, -, haltered⟩ := Option.bind_eq_some_iff.mp halter
    rw [← Option.some.inj haltered]
    exact List.pairwise_singleton _ _
  | cons first others ih =>
    obtain ⟨hfirst, hothers⟩ := List.pairwise_cons.mp h
    rw [alter] at halter
    split at halter
    · rename_i heq
      obtain ⟨made, hmade, haltered⟩ := Option.bind_eq_some_iff.mp halter
      have hmade : made.1.name = name := hname _ _ (by simp [heq]) hmade
      rw [← Option.some.inj haltered]
      exact List.pairwise_cons.mpr ⟨by rw [hmade, heq]; exact hfirst, hothers⟩
    · rename_i hne
      split at halter
      · rename_i hless
        obtain ⟨made, hmade, haltered⟩ := Option.bind_eq_some_iff.mp halter
        have hmade : made.1.name = name := hname _ _ (by simp) hmade
        rw [← Option.some.inj haltered]
        refine List.pairwise_cons.mpr ⟨fun f hf => ?_, h⟩
        rcases List.mem_cons.mp hf with rfl | hf
        · rwa [hmade]
        · rw [hmade]
          exact hless.trans (hfirst f hf)
      · rename_i hless
        obtain ⟨after, hafter, haltered⟩ := Option.bind_eq_some_iff.mp halter
        rw [← Option.some.inj haltered]
        refine List.pairwise_cons.mpr ⟨fun f hf => ?_, ih hothers hafter⟩
        rcases mem_alter hafter hf with hold | ⟨before, hbefore, hchange⟩
        · exact hfirst f hold
        · rw [hname before f (fun x hx => (hbefore x hx).2) hchange]
          exact lt_of_le_of_ne (not_lt.mp hless) (Ne.symm hne)

end Entries

/-! ## Paths -/

namespace Value

/-- What stands at the end of a path of names. -/
def at? : List String → Value → Option Value
  | [], v => some v
  | name :: path, table _ entries =>
      match named? name entries with
      | some e => at? path e.2.2
      | none => none
  | _ :: _, _ => none

theorem at?_table (name : String) (path : List String) (origin : Origin) (entries : List Entry) :
    at? (name :: path) (table origin entries) =
      (named? name entries).bind fun e => at? path e.2.2 := by
  rw [at?]
  cases named? name entries <;> rfl

theorem exists_table_of_at? {name : String} {path : List String} {v w : Value}
    (h : at? (name :: path) v = some w) : ∃ origin entries, v = table origin entries := by
  cases v with
  | table origin entries => exact ⟨origin, entries, rfl⟩
  | _ => cases h

/-- A path is followed in two parts. -/
theorem at?_append (path more : List String) (v : Value) :
    at? (path ++ more) v = (at? path v).bind (at? more) := by
  induction path generalizing v with
  | nil => rfl
  | cons name path ih =>
    cases v with
    | table origin entries =>
      rw [List.cons_append, at?_table, at?_table, Option.bind_assoc]
      exact congrArg _ (funext fun e => ih e.2.2)
    | _ => rfl

/-- What stands below the end of a path stands below what is there. -/
theorem at?_append_of {path : List String} {v w : Value} (h : at? path v = some w)
    (more : List String) : at? (path ++ more) v = at? more w := by
  rw [at?_append, h, Option.bind_some]

end Value

end TwinScreen.Toml
