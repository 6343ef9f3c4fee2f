import Mathlib.Data.String.Basic
import TwinScreen.Proofs.Bounds
import TwinScreen.Proofs.Color.Notation
import TwinScreen.Proofs.Toml.Tables
import TwinScreen.Settings.Printing
import TwinScreen.Settings.Reading

/-!
# Written settings are read back

Settings are written as a plain document of five sections (`written_eq_document`). The entries of
each section make a table that is read as the group they were written for, and so the whole document
is read as the settings it was written for (`read_written`).
-/
namespace TwinScreen

open Toml

/-! ## The document of settings -/

theorem Color.verbatim_written (c : Color) : ∀ d ∈ c.written, Reader.IsVerbatim d := by
  have hdigit : ∀ n < 16, Reader.IsVerbatim (Hexadecimal.upper n) := by decide
  intro d hd
  rcases mem_written hd with rfl | ⟨n, hn, rfl⟩
  · decide
  · exact hdigit n hn

theorem Arrangement.verbatim_name (a : Arrangement) : ∀ d ∈ a.name.toList, Reader.IsVerbatim d := by
  have hall : a.name.toList.all (fun d => decide (Reader.IsVerbatim d)) = true := by
    cases a <;> decide
  simpa using hall

namespace Toml.BareName

def layout : BareName := { text := "layout" }

def wrap : BareName := { text := "wrap" }

def lineWidth : BareName := { text := "line_width" }

def colors : BareName := { text := "colors" }

def top : BareName := { text := "top" }

def bottom : BareName := { text := "bottom" }

def background : BareName := { text := "background" }

def foreground : BareName := { text := "foreground" }

@[simp] theorem text_top : top.text = "top" := rfl

@[simp] theorem text_bottom : bottom.text = "bottom" := rfl

end Toml.BareName

def Sizes.toSection (s : Sizes) : Section :=
  .simple { text := "drawing" }
    [({ text := "title_font_height" }, .whole s.title.toNat),
      ({ text := "body_font_height" }, .whole s.body.toNat),
      ({ text := "margin" }, .whole s.margin.toNat)]

def Wrapping.toSection (w : Wrapping) : Section :=
  .simple .wrap
    [(.lineWidth, .whole w.lineWidth.toNat),
      ({ text := "wide_glyph_width" }, .whole w.wideGlyphWidth.toNat),
      ({ text := "max_lines" }, .whole w.maxLines.toNat)]

def Scheme.toSection (part : BareName) (s : Scheme) : Section :=
  .dotted .colors part
    [(.background, .quoted s.background.written s.background.verbatim_written),
      (.foreground, .quoted s.foreground.written s.foreground.verbatim_written)]

def Placement.toSection (p : Placement) : Section :=
  .simple .layout
    [(.layout, .quoted p.arrangement.name.toList p.arrangement.verbatim_name),
      ({ text := "screen_gap" }, .whole p.gap.toNat)]

@[simp] theorem Sizes.toSection_name (s : Sizes) : s.toSection.name.text = "drawing" := rfl

@[simp] theorem Sizes.toSection_more (s : Sizes) : s.toSection.more = [] := rfl

@[simp] theorem Wrapping.toSection_name (w : Wrapping) : w.toSection.name.text = "wrap" := rfl

@[simp] theorem Wrapping.toSection_more (w : Wrapping) : w.toSection.more = [] := rfl

@[simp] theorem Scheme.toSection_name (part : BareName) (s : Scheme) :
    (s.toSection part).name.text = "colors" := rfl

@[simp] theorem Scheme.toSection_more (part : BareName) (s : Scheme) :
    (s.toSection part).more = [part] := rfl

@[simp] theorem Placement.toSection_name (p : Placement) : p.toSection.name.text = "layout" := rfl

@[simp] theorem Placement.toSection_more (p : Placement) : p.toSection.more = [] := rfl

namespace Settings

def furtherSections (s : Settings) : List Section :=
  [s.wrapping.toSection, s.schemes.top.toSection .top, s.schemes.bottom.toSection .bottom,
    s.placement.toSection]

/-- Written settings are a document of plain sections. -/
theorem written_eq_document (s : Settings) :
    s.written = document s.sizes.toSection s.furtherSections := by
  have htop : "colors.top".toList = "colors".toList ++ '.' :: "top".toList := rfl
  have hbottom : "colors.bottom".toList = "colors".toList ++ '.' :: "bottom".toList := rfl
  rw [written, document]
  simp only [schemeLines, headerLine, numberLine, textLine, valueLine, htop, hbottom,
    furtherSections, sections, Section.before, Section.behindName, linesBefore, settingBefore,
    dotsBefore, BareName.before, Scalar.before, Sizes.toSection, Wrapping.toSection,
    Scheme.toSection, Placement.toSection, Section.simple, Section.dotted, BareName.layout,
    BareName.wrap, BareName.lineWidth, BareName.colors, BareName.top, BareName.bottom,
    BareName.background, BareName.foreground, List.append_assoc, List.cons_append,
    List.nil_append]

end Settings

/-! ## Groups are read -/

namespace Decoder

theorem word_toNat (n : UInt32) (span : Span) : word span (.integer n.toNat) = .ok n := by
  have hbound : (n.toNat : Int) < Extent.bound := by exact_mod_cast n.toNat_lt
  simp [word, number, hbound]

theorem longWord_toNat (n : UInt64) (span : Span) : longWord span (.integer n.toNat) = .ok n := by
  have hbound : (n.toNat : Int) < Size.bound := by exact_mod_cast n.toNat_lt
  simp [longWord, number, hbound]

theorem color_written (c : Color) (place span : Span) :
    color place span (.text (String.ofList c.written)) = .ok c := by
  have hparse : Color.parse (String.ofList c.written) = .ok c := c.parse_print
  rw [color, hparse]

theorem arrangement_name (a : Arrangement) (span : Span) :
    arrangement span (.text a.name) = .ok a := by
  cases a <;> simp [arrangement, namedArrangement, Arrangement.all, Arrangement.name]

/-- The entries of a section make a table that is read as a group. -/
def ReadsAs {α : Type} (decoder : Decoder α) (s : Section) (a : α) : Prop :=
  ∀ rest span, (Value.fill (entriesBefore s.entries rest) (.table .header [])).map (decoder span) =
    some (.ok a)

/-- The table of such a section is read as the group, wherever it stands in a document. -/
theorem ReadsAs.exists_table {α : Type} {decoder : Decoder α} {s : Section} {a : α}
    (h : ReadsAs decoder s a) (rest : List Char) :
    ∃ t, Value.fill (entriesBefore s.entries rest) (.table .header []) = some t ∧
      ∀ span, decoder span t = .ok a := by
  obtain ⟨t, ht, -⟩ := Option.map_eq_some_iff.mp (h rest ⟨0, 0⟩)
  refine ⟨t, ht, fun span => ?_⟩
  have hspan := h rest span
  rw [ht] at hspan
  exact Option.some.inj hspan

-- A section is read by following its entries into the table and from there into the group.
attribute [local simp] entriesBefore entryBefore BareName.key Scalar.value Value.fill
  Value.alterEntry Value.free alter group readEntry part except_ok_bind Section.simple
  Section.dotted BareName.layout BareName.wrap BareName.lineWidth BareName.colors
  BareName.background BareName.foreground

theorem sizes_readsAs (s : Sizes) : ReadsAs sizes s.toSection s := by
  intro rest span
  simp [Sizes.toSection, sizes, word_toNat, -String.lt_iff_ltb]

theorem wrapping_readsAs (w : Wrapping) : ReadsAs wrapping w.toSection w := by
  intro rest span
  simp [Wrapping.toSection, wrapping, word_toNat, longWord_toNat, -String.lt_iff_ltb]

theorem scheme_readsAs (name : BareName) (s : Scheme) : ReadsAs scheme (s.toSection name) s := by
  intro rest span
  simp [Scheme.toSection, scheme, colorPart, color_written, pure, Except.pure, -String.lt_iff_ltb]

theorem placement_readsAs (p : Placement) : ReadsAs placement p.toSection p := by
  intro rest span
  simp [Placement.toSection, placement, arrangement_name, longWord_toNat, -String.lt_iff_ltb]

end Decoder

namespace Settings

open Decoder

/-- The sections make a table that is read as the settings. -/
theorem addSections_readsAs (s : Settings) (span : Span) :
    (addSections (s.sizes.toSection :: s.furtherSections) (.table .header [])).map
      (Decoder.settings span) = some (.ok s) := by
  obtain ⟨t₁, ht₁, hsizes⟩ := (sizes_readsAs s.sizes).exists_table (sections s.furtherSections)
  obtain ⟨t₂, ht₂, hwrapping⟩ := (wrapping_readsAs s.wrapping).exists_table
    (sections (s.furtherSections.drop 1))
  obtain ⟨t₃, ht₃, htop⟩ := (scheme_readsAs .top s.schemes.top).exists_table
    (sections (s.furtherSections.drop 2))
  obtain ⟨t₄, ht₄, hbottom⟩ := (scheme_readsAs .bottom s.schemes.bottom).exists_table
    (sections (s.furtherSections.drop 3))
  obtain ⟨t₅, ht₅, hplacement⟩ := (placement_readsAs s.placement).exists_table
    (sections (s.furtherSections.drop 4))
  simp only [furtherSections, List.drop_succ_cons, List.drop_zero] at ht₁ ht₂ ht₃ ht₄ ht₅
  -- the document has the tables of colors (bottom and top), drawing, layout and wrap, in this order
  simp [furtherSections, addSections, Value.addTable, Section.parts, partsBefore, Value.under,
    Value.alterEntry, alter, Value.onward, Value.filled, Value.opened, Value.made, Origin.allows,
    ht₁, ht₂, ht₃, ht₄, ht₅, Decoder.settings, Decoder.schemes, group, readEntry, part, hsizes,
    hwrapping, htop, hbottom, hplacement, except_ok_bind, -String.lt_iff_ltb]

/-- Written settings are read again. -/
theorem read_written (s : Settings) : read s.written = .ok s := by
  obtain ⟨t, ht, hsettings⟩ :=
    Option.map_eq_some_iff.mp (s.addSections_readsAs ⟨s.written.length, 0⟩)
  rw [← parse?_document, ← written_eq_document] at ht
  simp only [read, ht, hsettings]

end Settings

end TwinScreen
