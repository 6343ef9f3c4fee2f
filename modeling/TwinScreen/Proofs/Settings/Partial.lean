import TwinScreen.Proofs.Settings.Choices
import TwinScreen.Proofs.Settings.Storage
import TwinScreen.Proofs.Toml.Plain

/-!
# Settings files with some of the settings

A settings file need not hold all settings: those in the file are used, in any order and with other
names among them, and the rest are standard settings (`load_partial`). Only a scheme has no standard
colors of its own: if its table is in the file, so must be both of its colors.
-/
namespace TwinScreen.Settings

open Toml

variable {K : Finset Setting} {s : Settings} {document : Value}

/-! ## Plain files -/

/-- Of the settings exactly these are among the lines of a plain document, each with the choice made
for it. No other line and no header stands in the way of a setting. -/
structure InLines (K : Finset Setting) (s : Settings) (f : Plain) : Prop where
  given : ∀ k ∈ K, ∃ v, (k.path, v) ∈ f.lines ∧ (s.choice k).SaidBy v
  only : ∀ l ∈ f.lines, ∀ k : Setting, l.1 = k.path → k ∈ K
  line_apart : ∀ l ∈ f.lines, ∀ k : Setting, l.1 <+: k.path → l.1 = k.path
  header_apart : ∀ h ∈ f.headers, ∀ k : Setting, ¬ k.path <+: h

/-- Whether a document with these headers and lines is one with these settings is seen from its
paths, but for what the lines of the settings say. -/
theorem inLines_of_lists {f : Plain} {headers : List (List String)}
    {lines : List (List String × Value)} (hheaders : f.headers = headers) (hlines : f.lines = lines)
    (hsaid : ∀ k ∈ K, ∃ v, (k.path, v) ∈ lines ∧ (s.choice k).SaidBy v)
    (hpaths : ∀ p ∈ lines.map Prod.fst, ∀ k : Setting, p <+: k.path → p = k.path ∧ k ∈ K)
    (hlevels : ∀ h ∈ headers, ∀ k : Setting, ¬ k.path <+: h) : InLines K s f where
  given := hlines ▸ hsaid
  only l hl k heq :=
    (hpaths l.1 (List.mem_map_of_mem (hlines ▸ hl)) k (heq ▸ List.prefix_refl _)).2
  line_apart l hl k hk := (hpaths l.1 (List.mem_map_of_mem (hlines ▸ hl)) k hk).1
  header_apart := hheaders ▸ hlevels

section Document

variable {f : Plain}

/-- What stands in a plain document is on the way to a header, or is one of the lines. -/
theorem header_or_line (hmirrors : Mirrors ([[]] ++ f.headers) f.lines document) {p : List String}
    (hp : p ≠ []) {w : Value} (hw : document.at? p = some w) :
    (∃ header ∈ f.headers, p <+: header) ∨ (p, w) ∈ f.lines := by
  rcases hmirrors.only p w hw with ⟨k, hk, hprefix⟩ | hline
  · rcases List.mem_cons.mp hk with rfl | hk
    · exact absurd (List.prefix_nil.mp hprefix) hp
    · exact .inl ⟨k, hk, hprefix⟩
  · exact .inr hline

theorem InLines.among (h : InLines K s f)
    (hmirrors : Mirrors ([[]] ++ f.headers) f.lines document) : Among K s document where
  given k hk := by
    obtain ⟨v, hv, hsaid⟩ := h.given k hk
    exact ⟨v, hmirrors.line _ hv, hsaid⟩
  absent k hk := by
    have hpath : k.path ≠ [] := by cases k <;> simp [Setting.path]
    cases hw : document.at? k.path with
    | none => rfl
    | some w =>
      rcases header_or_line hmirrors hpath hw with ⟨header, hmem, hprefix⟩ | hline
      · exact absurd hprefix (h.header_apart header hmem k)
      · exact absurd (h.only _ hline k rfl) hk
  table k p hp hne w hw := by
    rcases hmirrors.only p w hw with ⟨header, hmem, hprefix⟩ | hline
    · obtain ⟨entries, hentries⟩ := hmirrors.table header hmem p hprefix
      exact ⟨_, entries, Option.some.inj (hw.symm.trans hentries)⟩
    · exact absurd (h.line_apart _ hline k hp) hne

/-- The table of a scheme stands in the document if a header leads there. -/
theorem InLines.isSome_scheme_iff (h : InLines K s f)
    (hmirrors : Mirrors ([[]] ++ f.headers) f.lines document) (screen : Screen) :
    (document.at? ["colors", Setting.schemeName screen]).isSome ↔
      ∃ header ∈ f.headers, ["colors", Setting.schemeName screen] <+: header := by
  constructor
  · intro hstands
    obtain ⟨w, hw⟩ := Option.isSome_iff_exists.mp hstands
    rcases header_or_line hmirrors (by simp) hw with hheader | hline
    · exact hheader
    · have heq := h.line_apart _ hline (.background screen) ⟨["background"], rfl⟩
      simp [Setting.path] at heq
  · rintro ⟨header, hmem, hprefix⟩
    obtain ⟨entries, hentries⟩ := hmirrors.table header (List.mem_append_right _ hmem) _ hprefix
    rw [hentries]
    rfl

/-- A plain document is read as a document with the settings in its lines. -/
theorem InLines.exists_document (h : InLines K s f) (hcons : Consistent f.headers f.lines) :
    ∃ document, parse? f.text = some document ∧ Among K s document ∧
      (document.Throughout Value.Representable ↔ ∀ l ∈ f.lines, l.2.Representable) ∧
      ∀ screen, (document.at? ["colors", Setting.schemeName screen]).isSome ↔
        ∃ header ∈ f.headers, ["colors", Setting.schemeName screen] <+: header := by
  obtain ⟨document, hparse, hmirrors⟩ := f.parse?_text hcons
  refine ⟨document, hparse, h.among hmirrors, ⟨fun hpassed l hl => ?_, fun hlines => ?_⟩,
    h.isSome_scheme_iff hmirrors⟩
  · exact (hpassed.at? (hmirrors.line l hl)).holds
  · exact Plain.throughout_of_parse? Value.lasting_representable hlines hparse

end Document

/-! ## Loading -/

section Loading

variable {d : Disk} {path text : String}

/-- A document that is read loads. -/
theorem load_eq_ok (htext : d.readText path = .ok text)
    (hparse : parse? text.toList = some document) {r : Settings}
    (hread : ∀ span, Decoder.settings span document = .ok r) : load d path = .ok r := by
  simp only [load, htext, read, hparse, hread]

/-- A document that is not read is reported with the place that does not fit. -/
theorem load_eq_misfit (htext : d.readText path = .ok text)
    (hparse : parse? text.toList = some document)
    (hread : ∀ span r, Decoder.settings span document ≠ .ok r) :
    ∃ excerpt, load d path = .error (.unreadable (.misfit excerpt)) := by
  cases hsettings : Decoder.settings ⟨text.toList.length, 0⟩ document with
  | ok r => exact absurd hsettings (hread _ r)
  | error e => simp [load, htext, read, hparse, hsettings]

/-- A settings file may hold any of the settings. A plain document with some of them in its lines,
in any order and with other lines among them, is read as a document with just these settings; the
table of a scheme stands in it if a header leads there. From any file with such a document these
settings are loaded, and otherwise standard ones, if each scheme has both of its colors, or neither
of them and no table, and if some kind of number can hold each number in the file, whatever it is
for. If not, as where one color of a scheme is missing, the file is refused. -/
theorem load_partial (K : Finset Setting) (s : Settings) :
    (∀ f : Plain, Consistent f.headers f.lines → InLines K s f →
      ∃ document, parse? f.text = some document ∧ Among K s document ∧
        (document.Throughout Value.Representable ↔ ∀ l ∈ f.lines, l.2.Representable) ∧
        ∀ screen, (document.at? ["colors", Setting.schemeName screen]).isSome ↔
          ∃ header ∈ f.headers, ["colors", Setting.schemeName screen] <+: header) ∧
    ∀ (d : Disk) (path text : String) (document : Value), d.readText path = .ok text →
      parse? text.toList = some document → Among K s document →
        (WholeSchemes K document ∧ document.Throughout Value.Representable →
          ∃ r, load d path = .ok r ∧
            ∀ k, r.choice k = if k ∈ K then s.choice k else standard.choice k) ∧
        (¬ (WholeSchemes K document ∧ document.Throughout Value.Representable) →
          ∃ excerpt, load d path = .error (.unreadable (.misfit excerpt))) := by
  refine ⟨fun f hcons hlines => hlines.exists_document hcons,
    fun d path text document htext hparse hamong => ?_⟩
  have hsorted := parse?_sorted hparse
  refine ⟨fun ⟨hwhole, hpassed⟩ => ?_, fun hnot => ?_⟩
  · have hread := hamong.settings_eq_ok hsorted hpassed hwhole
    exact ⟨overlay K s, load_eq_ok htext hparse hread, choice_overlay K s⟩
  · exact load_eq_misfit htext hparse fun _ _ hread =>
      hnot ⟨hamong.wholeSchemes_of_eq_ok hsorted hread, hamong.throughout_of_eq_ok hsorted hread⟩

end Loading

def homeWith (text : String) : Disk :=
  Disk.put ⟨[(["home"], .directory)], ["home"]⟩ ["home", "settings.toml"] (.file text.toUTF8.data)

theorem readText_homeWith (text : String) :
    (homeWith text).readText "settings.toml" = .ok text :=
  Disk.readText_put ⟨by decide, by decide, by decide, by decide⟩ text

/-- Side by side, with shorter lines and a dark top screen. -/
def dark : Settings where
  sizes := .standard
  wrapping := ⟨40, 150, 0⟩
  schemes := ⟨⟨.black, .withAlpha .white 0x80⟩, .bottom⟩
  placement := ⟨.leftRight, 0⟩

/-- What is not standard in these settings. -/
def darkChosen : Finset Setting :=
  {.arrangement, .foreground .top, .background .top, .lineWidth}

/-- A file with these settings, in another order than usual and with other lines among them. -/
def darkText : String :=
  "theme = \"dark\"\n\n[layout]\nlayout = \"left-right\"\n\n[colors.top]\n" ++
    "foreground = \"#ffffff80\"\nbackground = \"#000000\"\n\n[wrap]\ntabs = 8\n" ++
    "line_width = 40\n"

def darkPlain : Plain where
  top := [({ text := "theme" }, .plainText "dark")]
  sections :=
    [.simple .layout [(.layout, .plainText "left-right")],
      .dotted .colors .top
        [(.foreground, .plainText "#ffffff80"), (.background, .plainText "#000000")],
      .simple .wrap [({ text := "tabs" }, .whole 8), (.lineWidth, .whole 40)]]

theorem lines_darkPlain : darkPlain.lines =
    [(["theme"], .text "dark"), (["layout", "layout"], .text "left-right"),
      (["colors", "top", "foreground"], .text "#ffffff80"),
      (["colors", "top", "background"], .text "#000000"), (["wrap", "tabs"], .integer 8),
      (["wrap", "line_width"], .integer 40)] := rfl

theorem inLines_darkPlain : InLines darkChosen dark darkPlain := by
  refine inLines_of_lists rfl lines_darkPlain (fun k hk => ?_) (by decide) (by decide)
  simp only [darkChosen, Finset.mem_insert, Finset.mem_singleton] at hk
  rcases hk with rfl | rfl | rfl | rfl
  · exact ⟨.text "left-right", by simp [Setting.path], rfl⟩
  · exact ⟨.text "#ffffff80", by simp [Setting.path, Setting.schemeName], Choice.said_of_writtenIn
      (.full ⟨.inr rfl, .inr rfl⟩ ⟨.inr rfl, .inr rfl⟩ ⟨.inr rfl, .inr rfl⟩ ⟨.inl rfl, .inl rfl⟩)⟩
  · exact ⟨.text "#000000", by simp [Setting.path, Setting.schemeName],
      Choice.said_of_writtenIn Color.black.written_writtenIn⟩
  · exact ⟨.integer 40, by simp [Setting.path], rfl⟩

/-- A file with one color of a scheme. -/
def halfText : String := "\n[colors.bottom]\nforeground = \"#DFDE77\"\n"

def halfPlain : Plain where
  top := []
  sections := [.dotted .colors .bottom [(.foreground, .plainText "#DFDE77")]]

theorem inLines_halfPlain : InLines {.foreground .bottom} standard halfPlain := by
  refine inLines_of_lists rfl rfl (fun k hk => ?_) (by decide) (by decide)
  rw [Finset.mem_singleton.mp hk]
  exact ⟨.text "#DFDE77", .head _,
    Choice.said_of_writtenIn Scheme.bottom.foreground.written_writtenIn⟩

/-- A file with no settings, but with a number of more than 128 bits. -/
def hugeText : String := "age = 340282366920938463463374607431768211456\n"

def hugePlain : Plain where
  top := [({ text := "age" }, .whole 0x100000000000000000000000000000000)]
  sections := []

theorem inLines_hugePlain : InLines ∅ standard hugePlain :=
  inLines_of_lists rfl rfl (fun k hk => absurd hk (Finset.notMem_empty k)) (by decide) (by decide)

/-- The lines for the dark screen are loaded. A single color and a number that nothing can hold are
refused. -/
theorem load_partial_dark :
    load (homeWith darkText) "settings.toml" = .ok dark ∧
      (∃ excerpt, load (homeWith halfText) "settings.toml" =
        .error (.unreadable (.misfit excerpt))) ∧
      ∃ excerpt, load (homeWith hugeText) "settings.toml" =
        .error (.unreadable (.misfit excerpt)) := by
  refine ⟨?_, ?_, ?_⟩
  · obtain ⟨hplain, hload⟩ := load_partial darkChosen dark
    obtain ⟨document, hparse, hamong, hpassed, hschemes⟩ :=
      hplain darkPlain ⟨by decide, by decide, by decide⟩ inLines_darkPlain
    have hwhole : WholeSchemes darkChosen document := by
      intro screen
      cases screen with
      | top => exact .inl ⟨by decide, by decide⟩
      | bottom =>
        refine .inr ⟨by decide, by decide, ?_⟩
        rw [← Option.not_isSome_iff_eq_none, hschemes]
        decide
    have hheld : ∀ l ∈ darkPlain.lines, l.2.Representable := by
      rw [lines_darkPlain]
      simp [Value.Representable, Described.longBound]
    rw [show darkPlain.text = darkText.toList by decide +kernel] at hparse
    obtain ⟨r, hr, hchoice⟩ :=
      (hload _ _ _ document (readText_homeWith _) hparse hamong).1 ⟨hwhole, hpassed.mpr hheld⟩
    have hdark : ∀ k, r.choice k = dark.choice k := fun k => by
      rw [hchoice]
      revert k
      decide
    rw [hr, eq_of_choice hdark]
  · obtain ⟨hplain, hload⟩ := load_partial {.foreground .bottom} standard
    obtain ⟨document, hparse, hamong, -⟩ :=
      hplain halfPlain ⟨by decide, by decide, by decide⟩ inLines_halfPlain
    refine (hload _ _ halfText document (readText_homeWith _) hparse hamong).2 fun hboth => ?_
    have hbottom := hboth.1 .bottom
    revert hbottom
    simp
  · obtain ⟨hplain, hload⟩ := load_partial ∅ standard
    obtain ⟨document, hparse, hamong, hpassed, -⟩ :=
      hplain hugePlain ⟨by decide, by decide, by decide⟩ inLines_hugePlain
    refine (hload _ _ hugeText document (readText_homeWith _) hparse hamong).2 fun hboth => ?_
    exact absurd (hpassed.mp hboth.2 _ (.head _)).2 (by decide)

/-- A file with the table of a scheme and no colors. -/
def emptyText : String := "\n[colors.top]\n"

def emptyPlain : Plain where
  top := []
  sections := [.dotted .colors .top []]

/-- Of no scheme one color is missing, but the table of one stands in the file, which is refused. -/
theorem load_emptyScheme :
    (emptyPlain.text = emptyText.toList ∧ emptyPlain.lines = [] ∧ InLines ∅ standard emptyPlain) ∧
      (∀ screen, .background screen ∈ (∅ : Finset Setting) ↔
        .foreground screen ∈ (∅ : Finset Setting)) ∧
      ∃ excerpt, load (homeWith emptyText) "settings.toml" =
        .error (.unreadable (.misfit excerpt)) := by
  have hlines : InLines ∅ standard emptyPlain :=
    inLines_of_lists rfl rfl (fun k hk => absurd hk (Finset.notMem_empty k)) (by decide) (by decide)
  refine ⟨⟨rfl, rfl, hlines⟩, by simp, ?_⟩
  obtain ⟨document, hparse, hamong, -, hschemes⟩ :=
    hlines.exists_document ⟨by decide, by decide, by decide⟩
  refine load_eq_misfit (readText_homeWith emptyText) hparse fun span r hread => ?_
  have htop : (document.at? ["colors", "top"]).isSome := (hschemes .top).mpr (by decide)
  rcases hamong.wholeSchemes_of_eq_ok (parse?_sorted hparse) hread .top with
    ⟨hbackground, -⟩ | ⟨-, -, hmissing⟩
  · simp at hbackground
  · rw [Setting.schemeName] at hmissing
    rw [hmissing] at htop
    cases htop

end TwinScreen.Settings
