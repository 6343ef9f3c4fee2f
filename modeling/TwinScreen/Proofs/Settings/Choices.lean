import Mathlib.Data.Finset.Basic
import TwinScreen.Proofs.Settings.Groups
import TwinScreen.Proofs.Settings.RoundTrip

/-!
# Documents with some of the settings

Settings are chosen one by one, and each has a path at which its choice may stand in a document. A
document with some of them (`Settings.Among`) is read as settings with these choices, and otherwise
standard ones, if each scheme has both of its colors, or neither of them and no table
(`Among.settings_eq_ok`). Otherwise it is not read at all, since there are no standard colors for a
scheme whose table is there (`Among.wholeSchemes_of_eq_ok`).
-/
namespace TwinScreen

open Toml

/-- What the user may choose, one by one. -/
inductive Setting where
  | titleHeight
  | bodyHeight
  | margin
  | lineWidth
  | wideGlyphWidth
  | maxLines
  | background (screen : Screen)
  | foreground (screen : Screen)
  | arrangement
  | gap
  deriving DecidableEq

namespace Setting

def all : List Setting :=
  [titleHeight, bodyHeight, margin, lineWidth, wideGlyphWidth, maxLines, background .top,
    background .bottom, foreground .top, foreground .bottom, arrangement, gap]

theorem mem_all (k : Setting) : k ∈ all := by
  cases k with
  | background screen => cases screen <;> decide
  | foreground screen => cases screen <;> decide
  | _ => decide

instance {p : Setting → Prop} [DecidablePred p] : Decidable (∀ k, p k) :=
  decidable_of_iff (∀ k ∈ all, p k) ⟨fun h k => h k k.mem_all, fun h k _ => h k⟩

/-- The name of the table with the colors of a screen. -/
def schemeName : Screen → String
  | .top => "top"
  | .bottom => "bottom"

/-- Where a setting stands in a document. -/
def path : Setting → List String
  | titleHeight => ["drawing", "title_font_height"]
  | bodyHeight => ["drawing", "body_font_height"]
  | margin => ["drawing", "margin"]
  | lineWidth => ["wrap", "line_width"]
  | wideGlyphWidth => ["wrap", "wide_glyph_width"]
  | maxLines => ["wrap", "max_lines"]
  | background screen => ["colors", schemeName screen, "background"]
  | foreground screen => ["colors", schemeName screen, "foreground"]
  | arrangement => ["layout", "layout"]
  | gap => ["layout", "screen_gap"]

end Setting

/-- What is chosen for a setting. -/
inductive Choice where
  | number (n : Nat)
  | color (c : Color)
  | arrangement (a : Arrangement)
  deriving DecidableEq

namespace Choice

/-- A value in a document says what is chosen: a number itself, a color in any of its spellings, an
arrangement by its name. -/
def SaidBy : Choice → Value → Prop
  | number n, v => v = .integer n
  | color c, v => ∃ s, v = .text s ∧ c.SpelledIn Hexadecimal.SpellsByte s.toList
  | arrangement a, v => v = .text a.name

theorem said_of_writtenIn {c : Color} {s : String}
    (h : c.WrittenIn Hexadecimal.SpellsByte s.toList) : (color c).SaidBy (.text s) :=
  ⟨s, rfl, h.spelledIn⟩

end Choice

namespace Settings

def choice (s : Settings) : Setting → Choice
  | .titleHeight => .number s.sizes.title.toNat
  | .bodyHeight => .number s.sizes.body.toNat
  | .margin => .number s.sizes.margin.toNat
  | .lineWidth => .number s.wrapping.lineWidth.toNat
  | .wideGlyphWidth => .number s.wrapping.wideGlyphWidth.toNat
  | .maxLines => .number s.wrapping.maxLines.toNat
  | .background screen => .color (s.schemes.of screen).background
  | .foreground screen => .color (s.schemes.of screen).foreground
  | .arrangement => .arrangement s.placement.arrangement
  | .gap => .number s.placement.gap.toNat

/-- Settings with the same choices are the same. -/
theorem eq_of_choice {r s : Settings} (h : ∀ k, r.choice k = s.choice k) : r = s := by
  obtain ⟨⟨_, _, _⟩, ⟨_, _, _⟩, ⟨⟨_, _⟩, _, _⟩, _, _⟩ := r
  obtain ⟨⟨_, _, _⟩, ⟨_, _, _⟩, ⟨⟨_, _⟩, _, _⟩, _, _⟩ := s
  simp only [Settings.mk.injEq, Sizes.mk.injEq, Wrapping.mk.injEq, Schemes.mk.injEq,
    Scheme.mk.injEq, Placement.mk.injEq]
  refine ⟨⟨?_, ?_, ?_⟩, ⟨?_, ?_, ?_⟩, ⟨⟨?_, ?_⟩, ?_, ?_⟩, ?_, ?_⟩
  · exact UInt32.toNat_inj.mp (Choice.number.inj (h .titleHeight))
  · exact UInt32.toNat_inj.mp (Choice.number.inj (h .bodyHeight))
  · exact UInt32.toNat_inj.mp (Choice.number.inj (h .margin))
  · exact UInt64.toNat_inj.mp (Choice.number.inj (h .lineWidth))
  · exact UInt32.toNat_inj.mp (Choice.number.inj (h .wideGlyphWidth))
  · exact UInt64.toNat_inj.mp (Choice.number.inj (h .maxLines))
  · exact Choice.color.inj (h (.background .top))
  · exact Choice.color.inj (h (.foreground .top))
  · exact Choice.color.inj (h (.background .bottom))
  · exact Choice.color.inj (h (.foreground .bottom))
  · exact Choice.arrangement.inj (h .arrangement)
  · exact UInt64.toNat_inj.mp (Choice.number.inj (h .gap))

/-- Of the settings exactly these stand in a document, each with the choice made for it. There may
be any other values. -/
structure Among (K : Finset Setting) (s : Settings) (document : Value) : Prop where
  given : ∀ k ∈ K, ∃ w, document.at? k.path = some w ∧ (s.choice k).SaidBy w
  absent : ∀ k ∉ K, document.at? k.path = none
  /-- What a setting stands in is a table. -/
  table : ∀ (k : Setting) p, p <+: k.path → p ≠ k.path → ∀ w, document.at? p = some w →
    ∃ origin entries, w = .table origin entries

/-- The settings with these choices, and otherwise standard ones. -/
def overlay (K : Finset Setting) (s : Settings) : Settings where
  sizes :=
    ⟨if .titleHeight ∈ K then s.sizes.title else Sizes.standard.title,
      if .bodyHeight ∈ K then s.sizes.body else Sizes.standard.body,
      if .margin ∈ K then s.sizes.margin else Sizes.standard.margin⟩
  wrapping :=
    ⟨if .lineWidth ∈ K then s.wrapping.lineWidth else Wrapping.standard.lineWidth,
      if .wideGlyphWidth ∈ K then s.wrapping.wideGlyphWidth else Wrapping.standard.wideGlyphWidth,
      if .maxLines ∈ K then s.wrapping.maxLines else Wrapping.standard.maxLines⟩
  schemes :=
    ⟨⟨if .background .top ∈ K then s.schemes.top.background else Scheme.top.background,
        if .foreground .top ∈ K then s.schemes.top.foreground else Scheme.top.foreground⟩,
      ⟨if .background .bottom ∈ K then s.schemes.bottom.background else Scheme.bottom.background,
        if .foreground .bottom ∈ K then s.schemes.bottom.foreground else Scheme.bottom.foreground⟩⟩
  placement :=
    ⟨if .arrangement ∈ K then s.placement.arrangement else Placement.standard.arrangement,
      if .gap ∈ K then s.placement.gap else Placement.standard.gap⟩

/-- The overlay has the chosen settings, and the standard for all others. -/
theorem choice_overlay (K : Finset Setting) (s : Settings) (k : Setting) :
    (overlay K s).choice k = if k ∈ K then s.choice k else standard.choice k := by
  cases k with
  | background screen => cases screen <;> simp only [choice, overlay, Schemes.of] <;> split <;> rfl
  | foreground screen => cases screen <;> simp only [choice, overlay, Schemes.of] <;> split <;> rfl
  | _ =>
    simp only [choice, overlay]
    split <;> rfl

/-! ## What the values are read as -/

theorem choice_bound (s : Settings) {k : Setting} {n : Nat} (h : s.choice k = .number n) :
    n < Size.bound := by
  cases k <;> cases h
  all_goals first
    | exact UInt64.toNat_lt _
    | exact (UInt32.toNat_lt _).trans (by decide)

open Decoder

variable {K : Finset Setting} {s : Settings} {document : Value}

theorem word_of_said {n : UInt32} {w : Value} (h : (Choice.number n.toNat).SaidBy w)
    (span : Span) : word span w = .ok n := by
  rw [Choice.SaidBy] at h
  rw [h, word_toNat]

theorem longWord_of_said {n : UInt64} {w : Value} (h : (Choice.number n.toNat).SaidBy w)
    (span : Span) : longWord span w = .ok n := by
  rw [Choice.SaidBy] at h
  rw [h, longWord_toNat]

theorem color_of_said {c : Color} {w : Value} (h : (Choice.color c).SaidBy w)
    (place span : Span) : color place span w = .ok c := by
  obtain ⟨s, rfl, hs⟩ := h
  rw [color, Color.parse_of_spelledIn hs]

theorem arrangement_of_said {a : Arrangement} {w : Value} (h : (Choice.arrangement a).SaidBy w)
    (span : Span) : arrangement span w = .ok a := by
  rw [Choice.SaidBy] at h
  rw [h, arrangement_name]

/-- The number of a setting is one that can be held. -/
theorem throughout_of_said {k : Setting} {w : Value} (h : (s.choice k).SaidBy w) :
    w.Throughout Value.Representable := by
  cases hchoice : s.choice k with
  | number n =>
    rw [hchoice, Choice.SaidBy] at h
    have hn := s.choice_bound hchoice
    have hlong : (Size.bound : Int) < Described.longBound := by decide
    rw [h]
    exact .leaf trivial ⟨by omega, by omega⟩
  | color c =>
    rw [hchoice] at h
    obtain ⟨_, rfl, -⟩ := h
    exact .leaf trivial trivial
  | arrangement a =>
    rw [hchoice, Choice.SaidBy] at h
    exact h ▸ .leaf trivial trivial

namespace Among

section Fields

variable {α β : Type} {entries : List Entry} {origin : Origin} {path : List String} {a r : α}
  (h : Among K s document)
include h

/-- The chosen settings are those that the document has a value for. -/
theorem mem_iff (k : Setting) : k ∈ K ↔ ∃ w, document.at? k.path = some w := by
  constructor
  · intro hk
    obtain ⟨w, hw, -⟩ := h.given k hk
    exact ⟨w, hw⟩
  · rintro ⟨w, hw⟩
    by_contra hk
    rw [h.absent k hk] at hw
    cases hw

/-- What stands where a setting belongs says what is chosen for it. -/
theorem said_of_at? {k : Setting} {w : Value} (hw : document.at? k.path = some w) :
    (s.choice k).SaidBy w := by
  obtain ⟨x, hx, hsaid⟩ := h.given k ((h.mem_iff k).mpr ⟨w, hw⟩)
  obtain rfl : x = w := Option.some.inj (hx.symm.trans hw)
  exact hsaid

/-- Nothing is chosen below a path that leads to nothing. -/
theorem not_mem_of_missing (hpath : document.at? path = none) (k : Setting)
    (hk : path <+: k.path) : k ∉ K := by
  obtain ⟨more, hmore⟩ := hk
  rw [h.mem_iff, ← hmore, Value.at?_append, hpath]
  simp

variable (hat : document.at? path = some (.table origin entries)) (k : Setting)
include hat

/-- A setting is read as the choice that was made for it, or stays as it was. -/
theorem reads_choice {f : Decoder.Field α} (hpath : k.path = path ++ [f.part.name])
    (hsaid : k ∈ K → ∀ w, (s.choice k).SaidBy w → ∀ span, f.decoder span w = .ok (f.get r))
    (hrest : k ∉ K → f.get r = f.get a) : f.Reads entries a r := by
  have hbelow := Value.at?_append_of hat [f.part.name]
  rw [← hpath] at hbelow
  refine Field.reads_of_at? origin (fun w hw => ?_) fun hnone => hrest fun hk => ?_
  · have hw : document.at? k.path = some w := hbelow.trans hw
    exact hsaid ((h.mem_iff k).mpr ⟨w, hw⟩) w (h.said_of_at? hw)
  · obtain ⟨w, hw⟩ := (h.mem_iff k).mp hk
    rw [hbelow, hnone] at hw
    cases hw

variable {name : String} {decoder : Decoder β} {get : α → β} {replace : α → β → α}
  {hget : ∀ a b, get (replace a b) = b}

theorem reads_of (hpath : k.path = path ++ [name]) {b : β}
    (hsaid : ∀ w, (s.choice k).SaidBy w → ∀ span, decoder span w = .ok b)
    (hr : get r = if k ∈ K then b else get a) :
    (Field.of name decoder get replace hget).Reads entries a r :=
  h.reads_choice hat k hpath
    (fun hk w hw span => (hsaid w hw span).trans (congrArg _ (hr.trans (if_pos hk)).symm))
    fun hk => hr.trans (if_neg hk)

/-- A group that settings stand in is read from its table, or stays as it was. -/
theorem reads_group (hpath : path ++ [name] <+: k.path) (hne : path ++ [name] ≠ k.path)
    (hsome : ∀ origin entries, document.at? (path ++ [name]) = some (.table origin entries) →
      ∀ span, decoder span (.table origin entries) = .ok (get r))
    (hnone : document.at? (path ++ [name]) = none → get r = get a) :
    (Field.of name decoder get replace hget).Reads entries a r := by
  have hbelow := Value.at?_append_of hat [name]
  refine Field.reads_of_at? origin (fun w hw span => ?_) fun hmissing =>
    hnone (hbelow.trans hmissing)
  have hw : document.at? (path ++ [name]) = some w := hbelow.trans hw
  obtain ⟨origin, entries, rfl⟩ := h.table k _ hpath hne w hw
  exact hsome origin entries hw span

end Fields

/-! ## What documents are read as -/

section Groups

variable {α : Type} {entries : List Entry} {origin : Origin} {path : List String}
  (h : Among K s document) (hsorted : document.Throughout Value.Sorted)
  (hpassed : document.Throughout Value.Representable)
include h hsorted hpassed

omit h in
/-- The fields of a table in a document settle how the table is read. -/
theorem foldlM_eq_ok (hat : document.at? path = some (.table origin entries)) (shape : Shape α)
    {a r : α} (hfields : ∀ f ∈ shape.fields, f.Reads entries a r) :
    entries.foldlM (readEntry shape.parts) a = .ok r :=
  (shape.foldlM_readEntry_iff (hsorted.at? hat).holds).mpr
    (Shape.reads_of_fields (hpassed.at? hat) hfields)

theorem sizes_eq_ok (hat : document.at? ["drawing"] = some (.table origin entries))
    (span : Span) :
    Decoder.sizes span (.table origin entries) = .ok (overlay K s).sizes := by
  refine foldlM_eq_ok hsorted hpassed hat sizesShape ?_
  simp only [sizesShape, List.forall_mem_cons]
  exact ⟨h.reads_of hat .titleHeight rfl (fun _ => word_of_said) rfl,
    h.reads_of hat .bodyHeight rfl (fun _ => word_of_said) rfl,
    h.reads_of hat .margin rfl (fun _ => word_of_said) rfl, by simp⟩

theorem wrapping_eq_ok (hat : document.at? ["wrap"] = some (.table origin entries))
    (span : Span) :
    Decoder.wrapping span (.table origin entries) = .ok (overlay K s).wrapping := by
  refine foldlM_eq_ok hsorted hpassed hat wrappingShape ?_
  simp only [wrappingShape, List.forall_mem_cons]
  exact ⟨h.reads_of hat .lineWidth rfl (fun _ => longWord_of_said) rfl,
    h.reads_of hat .wideGlyphWidth rfl (fun _ => word_of_said) rfl,
    h.reads_of hat .maxLines rfl (fun _ => longWord_of_said) rfl, by simp⟩

theorem placement_eq_ok (hat : document.at? ["layout"] = some (.table origin entries))
    (span : Span) :
    Decoder.placement span (.table origin entries) = .ok (overlay K s).placement := by
  refine foldlM_eq_ok hsorted hpassed hat placementShape ?_
  simp only [placementShape, List.forall_mem_cons]
  exact ⟨h.reads_of hat .arrangement rfl (fun _ => arrangement_of_said) rfl,
    h.reads_of hat .gap rfl (fun _ => longWord_of_said) rfl, by simp⟩

/-- A scheme with both of its colors. -/
theorem scheme_eq_ok {screen : Screen}
    (hat : document.at? ["colors", Setting.schemeName screen] = some (.table origin entries))
    (hbackground : .background screen ∈ K) (hforeground : .foreground screen ∈ K) (span : Span) :
    Decoder.scheme span (.table origin entries) = .ok (s.schemes.of screen) := by
  refine (scheme_table_iff (hsorted.at? hat).holds span).mpr
    (Shape.reads_of_fields (hpassed.at? hat) ?_)
  simp only [draftShape, List.forall_mem_cons]
  have hcolor {c : Color} (w : Value) (hw : (Choice.color c).SaidBy w) (span : Span) :
      (color span span w).map some = .ok (some c) := by
    rw [color_of_said hw]
    rfl
  exact ⟨h.reads_choice hat (.background screen) rfl (fun _ => hcolor)
      fun hk => absurd hbackground hk,
    h.reads_choice hat (.foreground screen) rfl (fun _ => hcolor)
      fun hk => absurd hforeground hk, by simp⟩

end Groups

end Among

/-- Each scheme has both of its colors, or neither of them and no table in a document. -/
def WholeSchemes (K : Finset Setting) (document : Value) : Prop :=
  ∀ screen, .background screen ∈ K ∧ .foreground screen ∈ K ∨
    .background screen ∉ K ∧ .foreground screen ∉ K ∧
      document.at? ["colors", Setting.schemeName screen] = none

namespace Among

section Whole

variable {entries : List Entry} {origin : Origin} (h : Among K s document)
  (hsorted : document.Throughout Value.Sorted) (hpassed : document.Throughout Value.Representable)
include h hsorted hpassed

theorem schemes_eq_ok (hwhole : WholeSchemes K document)
    (hat : document.at? ["colors"] = some (.table origin entries)) (span : Span) :
    Decoder.schemes span (.table origin entries) = .ok (overlay K s).schemes := by
  have hsome (screen : Screen) (origin : Origin) (entries : List Entry)
      (hscheme : document.at? ["colors", Setting.schemeName screen] = some (.table origin entries))
      (span : Span) :
      Decoder.scheme span (.table origin entries) = .ok ((overlay K s).schemes.of screen) := by
    rcases hwhole screen with ⟨hb, hf⟩ | ⟨-, -, hmissing⟩
    · rw [h.scheme_eq_ok hsorted hpassed hscheme hb hf]
      cases screen <;> simp [overlay, Schemes.of, hb, hf]
    · rw [hscheme] at hmissing
      cases hmissing
  have hnone (screen : Screen)
      (hscheme : document.at? ["colors", Setting.schemeName screen] = none) :
      (overlay K s).schemes.of screen = Schemes.standard.of screen := by
    have hb := h.not_mem_of_missing hscheme (.background screen) ⟨["background"], rfl⟩
    have hf := h.not_mem_of_missing hscheme (.foreground screen) ⟨["foreground"], rfl⟩
    cases screen <;> simp [overlay, Schemes.of, Schemes.standard, hb, hf]
  refine foldlM_eq_ok hsorted hpassed hat schemesShape ?_
  simp only [schemesShape, List.forall_mem_cons]
  exact ⟨h.reads_group hat (.background .top) (by decide) (by decide) (hsome .top) (hnone .top),
    h.reads_group hat (.background .bottom) (by decide) (by decide) (hsome .bottom)
      (hnone .bottom), by simp⟩

/-- The document is read as settings that are standard but for the choices in it. -/
theorem settings_eq_ok (hwhole : WholeSchemes K document) (span : Span) :
    Decoder.settings span document = .ok (overlay K s) := by
  obtain ⟨origin, entries, rfl⟩ := h.table .margin [] List.nil_prefix (by decide) document rfl
  have hroot : (Value.table origin entries).at? [] = some (.table origin entries) := rfl
  refine foldlM_eq_ok hsorted hpassed hroot settingsShape ?_
  simp only [settingsShape, List.forall_mem_cons]
  refine ⟨h.reads_group hroot .margin (by decide) (by decide)
      (fun _ _ hat => h.sizes_eq_ok hsorted hpassed hat) fun hnone => ?_,
    h.reads_group hroot .lineWidth (by decide) (by decide)
      (fun _ _ hat => h.wrapping_eq_ok hsorted hpassed hat) fun hnone => ?_,
    h.reads_group hroot (.background .top) (by decide) (by decide)
      (fun _ _ hat => h.schemes_eq_ok hsorted hpassed hwhole hat) fun hnone => ?_,
    h.reads_group hroot .gap (by decide) (by decide)
      (fun _ _ hat => h.placement_eq_ok hsorted hpassed hat) fun hnone => ?_, by simp⟩
  -- where the table of a group is missing, none of its settings is chosen
  all_goals have hout := h.not_mem_of_missing hnone
  · simp [overlay, hout .titleHeight (by decide), hout .bodyHeight (by decide),
      hout .margin (by decide), standard]
  · simp [overlay, hout .lineWidth (by decide), hout .wideGlyphWidth (by decide),
      hout .maxLines (by decide), standard]
  · simp [overlay, hout (.background .top) (by decide), hout (.foreground .top) (by decide),
      hout (.background .bottom) (by decide), hout (.foreground .bottom) (by decide), standard,
      Schemes.standard]
  · simp [overlay, hout .arrangement (by decide), hout .gap (by decide), standard]

end Whole

/-! ## What a document that is read holds -/

section Read

variable {span : Span} {r : Settings} {w : Value} (h : Among K s document)
  (hsorted : document.Throughout Value.Sorted)
include h hsorted

omit h in
/-- A scheme that stands in a document is read if the document is. -/
theorem exists_scheme (hread : Decoder.settings span document = .ok r) {screen : Screen}
    (hscheme : document.at? ["colors", Setting.schemeName screen] = some w) :
    ∃ span, Decoder.scheme span w = .ok (r.schemes.of screen) := by
  obtain ⟨colors, hcolors, hinside⟩ := Option.bind_eq_some_iff.mp
    ((Value.at?_append ["colors"] [Setting.schemeName screen] document).symm.trans hscheme)
  obtain ⟨_, _, rfl⟩ := Value.exists_table_of_at? hinside
  obtain ⟨_, _, rfl⟩ := Value.exists_table_of_at? hcolors
  obtain ⟨_, hschemes⟩ := settingsShape.exists_decoder hsorted.holds hread
    (.tail _ (.tail _ (.head _))) hcolors
  have hinner := (hsorted.at? hcolors).holds
  cases screen with
  | top => exact schemesShape.exists_decoder hinner hschemes (.head _) hinside
  | bottom => exact schemesShape.exists_decoder hinner hschemes (.tail _ (.head _)) hinside

/-- A scheme has no color but those in the document. -/
theorem wholeSchemes_of_eq_ok (hread : Decoder.settings span document = .ok r) :
    WholeSchemes K document := by
  intro screen
  cases hw : document.at? ["colors", Setting.schemeName screen] with
  | none => exact .inr ⟨h.not_mem_of_missing hw _ ⟨["background"], rfl⟩,
      h.not_mem_of_missing hw _ ⟨["foreground"], rfl⟩, rfl⟩
  | some w =>
    obtain ⟨origin, entries, rfl⟩ := h.table (.background screen) _ ⟨["background"], rfl⟩
      (by simp [Setting.path]) w hw
    obtain ⟨span', hscheme⟩ := exists_scheme hsorted hread hw
    have hdraft := (scheme_table_iff (hsorted.at? hw).holds span').mp hscheme
    left
    constructor
    · by_contra hk
      have hmissing := (Value.at?_append_of hw ["background"]).symm.trans (h.absent _ hk)
      cases (hdraft.field _ (.head _)).kept hmissing
    · by_contra hk
      have hmissing := (Value.at?_append_of hw ["foreground"]).symm.trans (h.absent _ hk)
      cases (hdraft.field _ (.tail _ (.head _))).kept hmissing

omit hsorted in
/-- What a document says about a setting can be represented. -/
theorem throughout_of_at? (k : Setting) (hw : document.at? k.path = some w) :
    w.Throughout Value.Representable :=
  throughout_of_said (h.said_of_at? hw)

omit h in
/-- A table that is read holds no number that is too large if its fields hold none. -/
theorem throughout_of_foldlM {α : Type} {path : List String} {origin : Origin}
    {entries : List Entry} (hat : document.at? path = some (.table origin entries))
    (shape : Shape α) {a r : α} (hread : entries.foldlM (readEntry shape.parts) a = .ok r)
    (hfields : ∀ f ∈ shape.fields, ∀ w, document.at? (path ++ [f.part.name]) = some w →
      ∀ span, f.decoder span w = .ok (f.get r) → w.Throughout Value.Representable) :
    (Value.table origin entries).Throughout Value.Representable := by
  have hinner := (hsorted.at? hat).holds
  refine ((shape.foldlM_readEntry_iff hinner).mp hread).throughout origin hinner
    fun f hf w hw => ?_
  obtain ⟨span, hspan⟩ := shape.exists_decoder hinner hread hf hw
  exact hfields f hf w ((Value.at?_append_of hat _).trans hw) span hspan

theorem sizes_throughout {r : Sizes} (hat : document.at? ["drawing"] = some w)
    (hread : Decoder.sizes span w = .ok r) : w.Throughout Value.Representable := by
  obtain ⟨origin, entries, rfl⟩ := h.table .margin _ ⟨["margin"], rfl⟩ (by decide) w hat
  refine throughout_of_foldlM hsorted hat sizesShape hread ?_
  simp only [sizesShape, List.forall_mem_cons]
  exact ⟨fun _ hw _ _ => h.throughout_of_at? .titleHeight hw,
    fun _ hw _ _ => h.throughout_of_at? .bodyHeight hw,
    fun _ hw _ _ => h.throughout_of_at? .margin hw, by simp⟩

theorem wrapping_throughout {r : Wrapping} (hat : document.at? ["wrap"] = some w)
    (hread : Decoder.wrapping span w = .ok r) : w.Throughout Value.Representable := by
  obtain ⟨origin, entries, rfl⟩ := h.table .lineWidth _ ⟨["line_width"], rfl⟩ (by decide) w hat
  refine throughout_of_foldlM hsorted hat wrappingShape hread ?_
  simp only [wrappingShape, List.forall_mem_cons]
  exact ⟨fun _ hw _ _ => h.throughout_of_at? .lineWidth hw,
    fun _ hw _ _ => h.throughout_of_at? .wideGlyphWidth hw,
    fun _ hw _ _ => h.throughout_of_at? .maxLines hw, by simp⟩

theorem placement_throughout {r : Placement} (hat : document.at? ["layout"] = some w)
    (hread : Decoder.placement span w = .ok r) : w.Throughout Value.Representable := by
  obtain ⟨origin, entries, rfl⟩ := h.table .gap _ ⟨["screen_gap"], rfl⟩ (by decide) w hat
  refine throughout_of_foldlM hsorted hat placementShape hread ?_
  simp only [placementShape, List.forall_mem_cons]
  exact ⟨fun _ hw _ _ => h.throughout_of_at? .arrangement hw,
    fun _ hw _ _ => h.throughout_of_at? .gap hw, by simp⟩

theorem scheme_throughout {r : Scheme} (screen : Screen)
    (hat : document.at? ["colors", Setting.schemeName screen] = some w)
    (hread : Decoder.scheme span w = .ok r) : w.Throughout Value.Representable := by
  obtain ⟨origin, entries, rfl⟩ := h.table (.background screen) _ ⟨["background"], rfl⟩
    (by simp [Setting.path]) w hat
  have hinner := (hsorted.at? hat).holds
  have hdraft := (draftShape.foldlM_readEntry_iff hinner).mpr
    ((scheme_table_iff hinner span).mp hread)
  refine throughout_of_foldlM hsorted hat draftShape hdraft ?_
  simp only [draftShape, List.forall_mem_cons]
  exact ⟨fun _ hw _ _ => h.throughout_of_at? (.background screen) hw,
    fun _ hw _ _ => h.throughout_of_at? (.foreground screen) hw, by simp⟩

theorem schemes_throughout {r : Schemes} (hat : document.at? ["colors"] = some w)
    (hread : Decoder.schemes span w = .ok r) : w.Throughout Value.Representable := by
  obtain ⟨origin, entries, rfl⟩ := h.table (.background .top) _ ⟨["top", "background"], rfl⟩
    (by decide) w hat
  refine throughout_of_foldlM hsorted hat schemesShape hread ?_
  simp only [schemesShape, List.forall_mem_cons]
  exact ⟨fun _ hw _ => h.scheme_throughout hsorted .top hw,
    fun _ hw _ => h.scheme_throughout hsorted .bottom hw, by simp⟩

/-- A document that is read holds no number that is too large, wherever it may stand. -/
theorem throughout_of_eq_ok (hread : Decoder.settings span document = .ok r) :
    document.Throughout Value.Representable := by
  obtain ⟨origin, entries, rfl⟩ := h.table .margin [] List.nil_prefix (by decide) document rfl
  have hroot : (Value.table origin entries).at? [] = some (.table origin entries) := rfl
  refine throughout_of_foldlM hsorted hroot settingsShape hread ?_
  simp only [settingsShape, List.forall_mem_cons]
  exact ⟨fun _ hw _ => h.sizes_throughout hsorted hw,
    fun _ hw _ => h.wrapping_throughout hsorted hw,
    fun _ hw _ => h.schemes_throughout hsorted hw,
    fun _ hw _ => h.placement_throughout hsorted hw, by simp⟩

end Read

end Among

end Settings

end TwinScreen
