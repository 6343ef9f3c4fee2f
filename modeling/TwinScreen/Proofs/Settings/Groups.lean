import TwinScreen.Proofs.Bounds
import TwinScreen.Proofs.Toml.Throughout
import TwinScreen.Settings.Reading

/-!
# How a table is read as a group

A group consists of fields, each with a name, a reading of its own and a place in the result.
Whether a table is read as a group, and as which one, is said field by field: a field that stands in
the table has what its value is read as, one that is missing keeps what it was, and what stands
under any other name must only be passed over (`Shape.foldlM_readEntry_iff`). The order in which
fields stand or are read does not matter.
-/
namespace TwinScreen

open Toml

/-! ## Values that are passed over -/

namespace Toml.Value

/-- A number that some kind of number can hold, or anything that is no number. -/
def Representable : Value → Prop
  | integer z => -Described.longBound ≤ z ∧ z < 2 * Described.longBound
  | garbled => False
  | fractional (.finite _ digits exponent) =>
      (Decimal.Binary64.ofDecimal? digits exponent).isSome
  | _ => True

/-- Lists and tables themselves can always be represented. -/
theorem lasting_representable : Lasting Representable where
  list _ _ := trivial
  empty _ := trivial
  reopened _ _ _ _ := trivial
  altered _ _ _ _ _ _ _ _ := trivial

end Toml.Value

namespace Decoder

/-- A whole number has a description if it has at most 128 bits. -/
theorem ofInteger_iff {z : Int} :
    Described.ofInteger z ≠ .wholeTooLarge ↔ (Value.integer z).Representable := by
  have hbound : (0xffffffffffffffff : Int) < Described.longBound := by decide
  unfold Described.ofInteger Value.Representable
  split
  · simp only [ne_eq, reduceCtorEq, not_false_eq_true, true_iff]
    omega
  · split
    · simp only [ne_eq, reduceCtorEq, not_false_eq_true, true_iff]
      omega
    · split
      · simp only [ne_eq, reduceCtorEq, not_false_eq_true, true_iff]
        omega
      · simp only [ne_eq, not_true_eq_false, false_iff]
        omega

/-- A floating-point number has a description if it is not too large for double precision. -/
theorem ofFractional_iff {x : Fractional} :
    Described.ofFractional x ≠ .fractionTooLarge ↔ (Value.fractional x).Representable := by
  cases x with
  | finite negative digits exponent =>
    rw [Value.Representable, Described.ofFractional]
    cases Decimal.Binary64.ofDecimal? digits exponent <;> simp
  | _ => simp [Described.ofFractional, Value.Representable]

theorem ignore_leaf_eq_ok {v : Value} (h : v.IsLeaf) (span : Span) :
    ignore span v = .ok () ↔ v.Throughout Value.Representable := by
  rw [h.throughout_iff]
  cases v with
  | list _ _ => exact h.elim
  | table _ _ => exact h.elim
  | integer z =>
    rw [ignore, ← ofInteger_iff]
    split <;> simp [refuse, *]
  | fractional x =>
    rw [ignore, ← ofFractional_iff]
    split <;> simp [refuse, *]
  | _ => simp [ignore, refuse, Value.Representable]

/-- A value is passed over just if all numbers in it can be held. -/
theorem ignore_eq_ok (span : Span) (v : Value) :
    ignore span v = .ok () ↔ v.Throughout Value.Representable := by
  -- what is inside of lists and of tables has lists of its own
  induction span, v using ignore.induct
    (motive_2 := fun entries => ignoreEntries entries = .ok () ↔
      ∀ e ∈ entries, e.2.2.Throughout Value.Representable)
    (motive_3 := fun items => ignoreItems items = .ok () ↔
      ∀ item ∈ items, item.2.Throughout Value.Representable) with
  | case1 _ _ _ ih =>
    rw [ignore, ih]
    exact ⟨.list trivial, Value.Throughout.items⟩
  | case2 _ _ _ ih =>
    rw [ignore, ih]
    exact ⟨.table trivial, Value.Throughout.entries⟩
  | case11 => simp [ignoreItems]
  | case12 _ _ _ ihitem ihothers =>
    rw [ignoreItems, except_unit_bind_eq_ok, ihitem, ihothers, List.forall_mem_cons]
  | case13 => simp [ignoreEntries]
  | case14 _ _ _ _ ihentry ihothers =>
    rw [ignoreEntries, except_unit_bind_eq_ok, ihentry, ihothers, List.forall_mem_cons]
  | _ => exact ignore_leaf_eq_ok (by trivial) _

/-! ## Fields -/

/-- A part of a group that is read without regard to the group and put at a place of its own. -/
structure Field (α : Type) where
  part : Part α
  Content : Type
  decoder : Decoder Content
  get : α → Content
  replace : α → Content → α
  read_eq : ∀ span v a, part.read span span v a = do return replace a (← decoder span v)
  get_replace : ∀ a b, get (replace a b) = b

/-- The fields of a group. -/
structure Shape (α : Type) where
  fields : List (Field α)
  distinct : fields.Pairwise fun f g => f.part.name ≠ g.part.name
  /-- Another field is not touched. -/
  independent : ∀ f ∈ fields, ∀ g ∈ fields, f.part.name ≠ g.part.name →
    ∀ a b, f.get (g.replace a b) = f.get a
  /-- There is nothing in a group besides its fields. -/
  ext : ∀ a a', (∀ f ∈ fields, f.get a = f.get a') → a = a'

variable {α : Type}

/-- What a table says of a field: what its value is read as, or what it was if it is missing. -/
def Field.Reads (f : Field α) (entries : List Entry) (a r : α) : Prop :=
  match named? f.part.name entries with
  | some e => f.decoder e.2.1 e.2.2 = .ok (f.get r)
  | none => f.get r = f.get a

namespace Field

variable {f : Field α} {e : Entry} {entries : List Entry} {a a' r : α}

theorem reads_of_entry (h : named? f.part.name entries = some e) :
    f.Reads entries a r ↔ f.decoder e.2.1 e.2.2 = .ok (f.get r) := by
  rw [Reads, h]

theorem reads_of_missing (h : named? f.part.name entries = none) :
    f.Reads entries a r ↔ f.get r = f.get a := by
  rw [Reads, h]

theorem reads_cons_ne (h : e.1.name ≠ f.part.name) :
    f.Reads (e :: entries) a r ↔ f.Reads entries a r := by
  rw [Reads, Reads, named?_cons_ne h]

/-- A field is read where the table leads with its name. -/
theorem reads_of_at? (origin : Origin)
    (hsome : ∀ w, (Value.table origin entries).at? [f.part.name] = some w →
      ∀ span, f.decoder span w = .ok (f.get r))
    (hnone : (Value.table origin entries).at? [f.part.name] = none → f.get r = f.get a) :
    f.Reads entries a r := by
  rw [Value.at?_table] at hsome hnone
  cases hentry : named? f.part.name entries with
  | some e => exact (reads_of_entry hentry).mpr (hsome e.2.2 (by rw [hentry]; rfl) e.2.1)
  | none => exact (reads_of_missing hentry).mpr (hnone (by rw [hentry]; rfl))

theorem Reads.exists_decoder {origin : Origin} {w : Value} (h : f.Reads entries a r)
    (hw : (Value.table origin entries).at? [f.part.name] = some w) :
    ∃ span, f.decoder span w = .ok (f.get r) := by
  rw [Value.at?_table] at hw
  obtain ⟨e, hentry, he⟩ := Option.bind_eq_some_iff.mp hw
  obtain rfl := Option.some.inj he
  exact ⟨e.2.1, (reads_of_entry hentry).mp h⟩

/-- A part that the document lacks is standard. -/
theorem Reads.kept {origin : Origin} (h : f.Reads entries a r)
    (hw : (Value.table origin entries).at? [f.part.name] = none) : f.get r = f.get a := by
  rw [Value.at?_table] at hw
  cases hentry : named? f.part.name entries with
  | some e =>
    rw [hentry] at hw
    cases hw
  | none => exact (reads_of_missing hentry).mp h

theorem reads_congr (h : f.get a = f.get a') : f.Reads entries a r ↔ f.Reads entries a' r := by
  rw [Reads, Reads, h]

end Field

namespace Shape

variable {shape : Shape α} {f : Field α} {e : Entry} {entries : List Entry} {a r : α}

def parts (shape : Shape α) : List (Part α) := shape.fields.map Field.part

/-- What a table says of a group. -/
structure Reads (shape : Shape α) (entries : List Entry) (a r : α) : Prop where
  field : ∀ f ∈ shape.fields, f.Reads entries a r
  other : ∀ e ∈ entries, (∀ f ∈ shape.fields, f.part.name ≠ e.1.name) →
    ignore e.2.1 e.2.2 = .ok ()

theorem reads_of_fields {origin : Origin}
    (hpassed : (Value.table origin entries).Throughout Value.Representable)
    (hfields : ∀ f ∈ shape.fields, f.Reads entries a r) : shape.Reads entries a r :=
  ⟨hfields, fun e he _ => (ignore_eq_ok e.2.1 e.2.2).mpr (hpassed.entries e he)⟩

/-- What is passed over in a table that is read can be held, so all of the table can be if this is
known of its fields. -/
theorem Reads.throughout (h : shape.Reads entries a r) (origin : Origin)
    (hsorted : Ascending entries)
    (hfields : ∀ f ∈ shape.fields, ∀ w, (Value.table origin entries).at? [f.part.name] = some w →
      w.Throughout Value.Representable) :
    (Value.table origin entries).Throughout Value.Representable := by
  refine .table trivial fun e he => ?_
  by_cases hfield : ∃ f ∈ shape.fields, f.part.name = e.1.name
  · obtain ⟨f, hf, hname⟩ := hfield
    refine hfields f hf e.2.2 ?_
    rw [Value.at?_table, hname, hsorted.named?_of_mem he]
    rfl
  · exact (ignore_eq_ok _ _).mp (h.other e he fun f hf hname => hfield ⟨f, hf, hname⟩)

theorem eq_of_name {g : Field α} (hf : f ∈ shape.fields) (hg : g ∈ shape.fields)
    (h : f.part.name = g.part.name) : f = g := by
  have hsymm : Std.Symm fun f g : Field α => f.part.name ≠ g.part.name := ⟨fun _ _ => Ne.symm⟩
  by_contra hne
  exact shape.distinct.forall hf hg hne h

/-- An entry with the name of a field is read as this field. -/
theorem readEntry_field (hf : f ∈ shape.fields) (hname : f.part.name = e.1.name) :
    readEntry shape.parts a e = do return f.replace a (← f.decoder e.2.1 e.2.2) := by
  have hfind : ∃ p, shape.parts.find? (fun p => p.name == e.1.name) = some p := by
    rw [← Option.isSome_iff_exists, List.find?_isSome]
    exact ⟨f.part, List.mem_map_of_mem hf, by simp [hname]⟩
  obtain ⟨p, hp⟩ := hfind
  obtain ⟨g, hg, rfl⟩ := List.mem_map.mp (List.mem_of_find?_eq_some hp)
  have hgname : g.part.name = e.1.name := by simpa using List.find?_some hp
  obtain rfl := shape.eq_of_name hf hg (hname.trans hgname.symm)
  rw [readEntry, hp]
  exact f.read_eq _ _ _

theorem readEntry_other (h : ∀ f ∈ shape.fields, f.part.name ≠ e.1.name) :
    readEntry shape.parts a e = do
      ignore e.2.1 e.2.2
      return a := by
  have hfind : shape.parts.find? (fun p => p.name == e.1.name) = none := by
    simpa [parts] using h
  rw [readEntry, hfind]

/-- A field is settled by the entry with its name. -/
theorem reads_cons_field (h : Ascending (e :: entries)) (hf : f ∈ shape.fields)
    (hname : f.part.name = e.1.name) :
    shape.Reads (e :: entries) a r ↔
      ∃ b, f.decoder e.2.1 e.2.2 = .ok b ∧ shape.Reads entries (f.replace a b) r := by
  have hself : named? f.part.name (e :: entries) = some e := by rw [hname, named?_cons_self]
  have hgone : named? f.part.name entries = none := h.named?_others hname.le
  have hothers {g : Field α} (hg : g ∈ shape.fields) (hne : g.part.name ≠ f.part.name) (b) :
      g.Reads (e :: entries) a r ↔ g.Reads entries (f.replace a b) r := by
    rw [Field.reads_cons_ne (by rw [← hname]; exact hne.symm)]
    exact Field.reads_congr (shape.independent g hg f hf hne a b).symm
  constructor
  · intro hreads
    have hdecoder := (Field.reads_of_entry hself).mp (hreads.field f hf)
    refine ⟨f.get r, hdecoder, fun g hg => ?_, fun e' he' => hreads.other e' (.tail _ he')⟩
    by_cases heq : g.part.name = f.part.name
    · obtain rfl := shape.eq_of_name hg hf heq
      exact (Field.reads_of_missing hgone).mpr (g.get_replace _ _).symm
    · exact (hothers hg heq _).mp (hreads.field g hg)
  · rintro ⟨b, hdecoder, hreads⟩
    have hget : f.get r = b :=
      ((Field.reads_of_missing hgone).mp (hreads.field f hf)).trans (f.get_replace a b)
    refine ⟨fun g hg => ?_, fun e' he' hnone => ?_⟩
    · by_cases heq : g.part.name = f.part.name
      · obtain rfl := shape.eq_of_name hg hf heq
        exact (Field.reads_of_entry hself).mpr (hget ▸ hdecoder)
      · exact (hothers hg heq b).mpr (hreads.field g hg)
    · rcases List.mem_cons.mp he' with rfl | he'
      · exact absurd hname (hnone f hf)
      · exact hreads.other e' he' hnone

/-- An entry with any other name is passed over. -/
theorem reads_cons_other (h : ∀ f ∈ shape.fields, f.part.name ≠ e.1.name) :
    shape.Reads (e :: entries) a r ↔
      ignore e.2.1 e.2.2 = .ok () ∧ shape.Reads entries a r := by
  have hfield {f : Field α} (hf : f ∈ shape.fields) :
      f.Reads (e :: entries) a r ↔ f.Reads entries a r := Field.reads_cons_ne (h f hf).symm
  constructor
  · intro hreads
    exact ⟨hreads.other e (.head _) h, fun f hf => (hfield hf).mp (hreads.field f hf),
      fun e' he' => hreads.other e' (.tail _ he')⟩
  · rintro ⟨hignore, hreads⟩
    refine ⟨fun f hf => (hfield hf).mpr (hreads.field f hf), fun e' he' hnone => ?_⟩
    rcases List.mem_cons.mp he' with rfl | he'
    · exact hignore
    · exact hreads.other e' he' hnone

/-- A table is read as a group field by field. -/
theorem foldlM_readEntry_iff (shape : Shape α) (h : Ascending entries) :
    entries.foldlM (readEntry shape.parts) a = .ok r ↔ shape.Reads entries a r := by
  -- names ascend, so the first entry is the only one with its name and settles its field for good
  induction entries generalizing a with
  | nil =>
    rw [List.foldlM_nil]
    constructor
    · intro hpure
      rw [← Except.ok.inj hpure]
      exact ⟨fun f _ => (Field.reads_of_missing rfl).mpr rfl, by simp⟩
    · intro hreads
      exact congrArg _ (shape.ext a r fun f hf =>
        ((Field.reads_of_missing rfl).mp (hreads.field f hf)).symm)
  | cons e others ih =>
    rw [List.foldlM_cons, except_bind_eq_ok]
    by_cases hfield : ∃ f ∈ shape.fields, f.part.name = e.1.name
    · obtain ⟨f, hf, hname⟩ := hfield
      rw [reads_cons_field h hf hname, readEntry_field hf hname, except_bind_pure]
      constructor
      · rintro ⟨a', ha', hmore⟩
        obtain ⟨b, hb, rfl⟩ := except_map_eq_ok.mp ha'
        exact ⟨b, hb, (ih h.of_cons).mp hmore⟩
      · rintro ⟨b, hb, hmore⟩
        exact ⟨f.replace a b, by rw [hb]; rfl, (ih h.of_cons).mpr hmore⟩
    · have hother : ∀ f ∈ shape.fields, f.part.name ≠ e.1.name := fun f hf heq =>
        hfield ⟨f, hf, heq⟩
      rw [reads_cons_other hother, readEntry_other hother]
      constructor
      · rintro ⟨a', ha', hmore⟩
        obtain ⟨u, hu, hpure⟩ := (except_bind_eq_ok _ _ _).mp ha'
        obtain rfl := Except.ok.inj hpure
        exact ⟨hu, (ih h.of_cons).mp hmore⟩
      · rintro ⟨hu, hmore⟩
        exact ⟨a, by rw [hu]; rfl, (ih h.of_cons).mpr hmore⟩

/-- Where a table is read as a group, each field that stands in it is read. -/
theorem exists_decoder {origin : Origin} {w : Value} (h : Ascending entries)
    (hread : entries.foldlM (readEntry shape.parts) a = .ok r) (hf : f ∈ shape.fields)
    (hw : (Value.table origin entries).at? [f.part.name] = some w) :
    ∃ span, f.decoder span w = .ok (f.get r) :=
  (((shape.foldlM_readEntry_iff h).mp hread).field f hf).exists_decoder hw

end Shape

/-! ## The groups of settings -/

/-- A part that has a decoder of its own. -/
def Field.of {β : Type} (name : String) (decoder : Decoder β) (get : α → β)
    (replace : α → β → α) (h : ∀ a b, get (replace a b) = b) : Field α where
  part := Decoder.part name decoder replace
  Content := β
  decoder := decoder
  get := get
  replace := replace
  read_eq _ _ _ := rfl
  get_replace := h

/-- The fields that `sizes` reads. -/
def sizesShape : Shape Sizes where
  fields :=
    [.of "title_font_height" word Sizes.title (fun s n => { s with title := n }) fun _ _ => rfl,
      .of "body_font_height" word Sizes.body (fun s n => { s with body := n }) fun _ _ => rfl,
      .of "margin" word Sizes.margin (fun s n => { s with margin := n }) fun _ _ => rfl]
  distinct := by simp [Field.of, part]
  independent := by simp [Field.of, part]
  ext := by
    rintro ⟨_, _, _⟩ ⟨_, _, _⟩
    simp [Field.of]

/-- The fields that `wrapping` reads. -/
def wrappingShape : Shape Wrapping where
  fields :=
    [.of "line_width" longWord Wrapping.lineWidth (fun w n => { w with lineWidth := n })
        fun _ _ => rfl,
      .of "wide_glyph_width" word Wrapping.wideGlyphWidth
        (fun w n => { w with wideGlyphWidth := n }) fun _ _ => rfl,
      .of "max_lines" longWord Wrapping.maxLines (fun w n => { w with maxLines := n })
        fun _ _ => rfl]
  distinct := by simp [Field.of, part]
  independent := by simp [Field.of, part]
  ext := by
    rintro ⟨_, _, _⟩ ⟨_, _, _⟩
    simp [Field.of]

/-- The fields that `placement` reads. -/
def placementShape : Shape Placement where
  fields :=
    [.of "layout" arrangement Placement.arrangement (fun p a => { p with arrangement := a })
        fun _ _ => rfl,
      .of "screen_gap" longWord Placement.gap (fun p n => { p with gap := n }) fun _ _ => rfl]
  distinct := by simp [Field.of, part]
  independent := by simp [Field.of, part]
  ext := by
    rintro ⟨_, _⟩ ⟨_, _⟩
    simp [Field.of]

/-- A color of a scheme, which is there or not. -/
def Field.ofColor (name : String) (get : SchemeDraft → Option Color)
    (replace : SchemeDraft → Option Color → SchemeDraft) (h : ∀ d c, get (replace d c) = c) :
    Field SchemeDraft where
  part := colorPart name fun d c => replace d (some c)
  Content := Option Color
  decoder span v := (color span span v).map some
  get := get
  replace := replace
  read_eq span v d := by
    cases hcolor : color span span v with
    | error e => simp [colorPart, hcolor, Except.map, bind, Except.bind]
    | ok c => simp [colorPart, hcolor, Except.map, bind, Except.bind]
  get_replace := h

/-- The colors that `scheme` reads before it asks for both of them. -/
def draftShape : Shape SchemeDraft where
  fields :=
    [.ofColor "background" SchemeDraft.background (fun d c => { d with background := c })
        fun _ _ => rfl,
      .ofColor "foreground" SchemeDraft.foreground (fun d c => { d with foreground := c })
        fun _ _ => rfl]
  distinct := by simp [Field.ofColor, colorPart]
  independent := by simp [Field.ofColor, colorPart]
  ext := by
    rintro ⟨_, _⟩ ⟨_, _⟩
    simp [Field.ofColor]

/-- The fields that `schemes` reads. -/
def schemesShape : Shape Schemes where
  fields :=
    [.of "top" scheme Schemes.top (fun s c => { s with top := c }) fun _ _ => rfl,
      .of "bottom" scheme Schemes.bottom (fun s c => { s with bottom := c }) fun _ _ => rfl]
  distinct := by simp [Field.of, part]
  independent := by simp [Field.of, part]
  ext := by
    rintro ⟨_, _⟩ ⟨_, _⟩
    simp [Field.of]

/-- The groups that `settings` reads. -/
def settingsShape : Shape Settings where
  fields :=
    [.of "drawing" sizes Settings.sizes (fun s g => { s with sizes := g }) fun _ _ => rfl,
      .of "wrap" wrapping Settings.wrapping (fun s g => { s with wrapping := g }) fun _ _ => rfl,
      .of "colors" schemes Settings.schemes (fun s g => { s with schemes := g }) fun _ _ => rfl,
      .of "layout" placement Settings.placement (fun s g => { s with placement := g })
        fun _ _ => rfl]
  distinct := by simp [Field.of, part]
  independent := by simp [Field.of, part]
  ext := by
    rintro ⟨_, _, _, _⟩ ⟨_, _, _, _⟩
    simp [Field.of]

/-- There are no standard colors that a scheme could have. -/
theorem scheme_table_iff {entries : List Entry} {origin : Origin} (h : Ascending entries)
    (span : Span) {r : Scheme} :
    scheme span (.table origin entries) = .ok r ↔
      draftShape.Reads entries ⟨none, none⟩ ⟨some r.background, some r.foreground⟩ := by
  have hdraft {d : SchemeDraft} : draftShape.Reads entries ⟨none, none⟩ d ↔
      group draftShape.parts "struct ColorScheme" ⟨none, none⟩ span (.table origin entries) =
        .ok d :=
    (draftShape.foldlM_readEntry_iff h).symm
  rw [hdraft, scheme]
  refine (except_bind_eq_ok _ _ _).trans ⟨?_, fun hgroup => ⟨_, hgroup, rfl⟩⟩
  rintro ⟨⟨background, foreground⟩, hgroup, hr⟩
  cases background with
  | none => cases hr
  | some b =>
    cases foreground with
    | none => cases hr
    | some f =>
      obtain rfl := Except.ok.inj hr
      exact hgroup

end Decoder

end TwinScreen
