import TwinScreen.Settings
import TwinScreen.Settings.Misfit
import TwinScreen.Toml.Document
import TwinScreen.Toml.Excerpt

/-!
# Reading settings

Settings are a document with a table for each group. What is missing keeps its standard value and
unknown names are passed over; only a scheme that is present must have both of its colors. A group
may also be a list of its values in order. Entries are read in the order of their names, and the
first one that does not fit is reported.
-/
namespace TwinScreen

open Toml

/-- Makes something of a value of a document. -/
abbrev Decoder (α : Type) : Type := Span → Value → Except Misfit α

namespace Decoder

variable {α β : Type}

def refuse (span : Span) (mismatch : Mismatch) : Except Misfit α := .error ⟨span, mismatch⟩

/-- Refuses a value because something else is expected. -/
def unexpected (expected : String) (span : Span) (v : Value) : Except Misfit α :=
  match Described.ofValue v with
  | .known found => refuse span (.kind found expected)
  | .wholeTooLarge => refuse span .wholeTooLarge
  | .fractionTooLarge => refuse span .fractionTooLarge

/-! ## Numbers and colors -/

def number (bound : Nat) (expected : String) : Decoder Nat := fun span v =>
  match v with
  | .integer z =>
      if 0 ≤ z ∧ z < bound then .ok z.toNat
      else if -0x8000000000000000 ≤ z ∧ z < 0x10000000000000000 then refuse span (.range z expected)
      else unexpected expected span v
  | v => unexpected expected span v

def word : Decoder UInt32 := fun span v => do
  return .ofNat (← number Extent.bound "u32" span v)

def longWord : Decoder UInt64 := fun span v => do
  return .ofNat (← number Size.bound "usize" span v)

/-- A color by its notation. A text that is none is reported at a place of its own. -/
def color (place : Span) : Decoder Color := fun span v =>
  match v with
  | .text s =>
      match Color.parse s with
      | .ok c => .ok c
      | .error e => refuse place (.color e)
  | v => unexpected "a string" span v

/-! ## Values that are passed over -/

mutual

/-- Passes over a value. It must not hold a number that no kind of number can hold. -/
def ignore (span : Span) : Value → Except Misfit Unit
  | .list _ items => ignoreItems items
  | .table _ entries => ignoreEntries entries
  | .integer z =>
      if Described.ofInteger z = .wholeTooLarge then refuse span .wholeTooLarge else .ok ()
  | .fractional x =>
      if Described.ofFractional x = .fractionTooLarge then refuse span .fractionTooLarge
      else .ok ()
  | .garbled => refuse span .wholeTooLarge
  | .text _ | .boolean _ | .moment => .ok ()

def ignoreItems : List (Span × Value) → Except Misfit Unit
  | [] => .ok ()
  | (span, v) :: others => do
      ignore span v
      ignoreItems others

def ignoreEntries : List Entry → Except Misfit Unit
  | [] => .ok ()
  | (_, span, v) :: others => do
      ignore span v
      ignoreEntries others

end

/-! ## Groups -/

structure Part (α : Type) where
  name : String
  /-- Replaces the part in a group by what a value says. The place is where a text without meaning
  is reported: at the value in a table, and at the whole of a list. -/
  read (place : Span) : Span → Value → α → Except Misfit α

/-- Reads an entry over a group. -/
def readEntry (parts : List (Part α)) (a : α) (e : Entry) : Except Misfit α :=
  match parts.find? fun p => p.name == e.1.name with
  | some p => p.read e.2.1 e.2.1 e.2.2 a
  | none => do
      ignore e.2.1 e.2.2
      return a

/-- Reads the parts that are present, over a group with standard values. -/
def group (parts : List (Part α)) (expected : String) (standard : α) : Decoder α := fun span v =>
  match v with
  | .table _ entries => entries.foldlM (readEntry parts) standard
  | .list _ items =>
      (parts.zip items).foldlM (fun a (p, itemSpan, item) => p.read span itemSpan item a) standard
  | .moment => .ok standard
  | v => unexpected expected span v

/-- A part whose value is read without regard to the group. -/
def part (name : String) (decoder : Decoder β) (replace : α → β → α) : Part α :=
  ⟨name, fun _ span v a => do return replace a (← decoder span v)⟩

def colorPart (name : String) (replace : α → Color → α) : Part α :=
  ⟨name, fun place span v a => do return replace a (← color place span v)⟩

def sizes : Decoder Sizes :=
  group
    [part "title_font_height" word fun s n => { s with title := n },
      part "body_font_height" word fun s n => { s with body := n },
      part "margin" word fun s n => { s with margin := n }]
    "struct DrawingConfig" .standard

def wrapping : Decoder Wrapping :=
  group
    [part "line_width" longWord fun w n => { w with lineWidth := n },
      part "wide_glyph_width" word fun w n => { w with wideGlyphWidth := n },
      part "max_lines" longWord fun w n => { w with maxLines := n }]
    "struct WrapConfig" .standard

structure SchemeDraft where
  background : Option Color
  foreground : Option Color

def missingColor (v : Value) (name : String) : Mismatch :=
  match v with
  | .list _ items => .tooFew items.length "struct ColorScheme with 2 elements"
  | _ => .missing name

def scheme : Decoder Scheme := fun span v => do
  let draft ← group
    [colorPart "background" fun (d : SchemeDraft) c => { d with background := some c },
      colorPart "foreground" fun d c => { d with foreground := some c }]
    "struct ColorScheme" ⟨none, none⟩ span v
  match draft.background, draft.foreground with
  | some background, some foreground => return ⟨background, foreground⟩
  | none, _ => refuse span (missingColor v "background")
  | some _, none => refuse span (missingColor v "foreground")

def schemes : Decoder Schemes :=
  group
    [part "top" scheme fun s c => { s with top := c },
      part "bottom" scheme fun s c => { s with bottom := c }]
    "struct ColorConfig" .standard

/-! ## The arrangement -/

/-- The arrangement with exactly this name. -/
def namedArrangement (span : Span) (name : String) : Except Misfit Arrangement :=
  match Arrangement.all.find? fun a => a.name == name with
  | some a => .ok a
  | none => refuse span (.unknownArrangement name)

/-- Takes nothing but an empty list or table. -/
def nothing : Decoder Unit := fun span v =>
  match v with
  | .list _ [] | .table _ [] => .ok ()
  | .list _ _ => refuse span (.notEmpty "array")
  | .table _ _ => refuse span (.notEmpty "table")
  | .text _ => refuse span (.notTable "string")
  | .integer _ | .garbled => refuse span (.notTable "integer")
  | .fractional _ => refuse span (.notTable "float")
  | .boolean _ => refuse span (.notTable "boolean")
  | .moment => refuse span (.notTable "datetime")

/-- An arrangement by its name, which may also be the name of the only, empty entry of a table. -/
def arrangement : Decoder Arrangement := fun span v =>
  match v with
  | .text s => namedArrangement span s
  | .table _ [] => refuse span .noEntry
  | .table _ [(key, innerSpan, inner)] => do
      let a ← namedArrangement key.span key.name
      nothing innerSpan inner
      return a
  | .table _ _ => refuse span .severalEntries
  | _ => refuse span .noArrangement

def placement : Decoder Placement :=
  group
    [part "layout" arrangement fun p a => { p with arrangement := a },
      part "screen_gap" longWord fun p n => { p with gap := n }]
    "struct LayoutConfig" .standard

def settings : Decoder Settings :=
  group
    [part "drawing" sizes fun s g => { s with sizes := g },
      part "wrap" wrapping fun s g => { s with wrapping := g },
      part "colors" schemes fun s g => { s with schemes := g },
      part "layout" placement fun s g => { s with placement := g }]
    "struct ErrorScreenConfig" .standard

end Decoder

namespace Settings

inductive Unreadable where
  | malformed
  /-- A part of the document does not fit. -/
  | misfit (excerpt : String)
  deriving DecidableEq, Repr

namespace Unreadable

def reason : Unreadable → String
  | malformed => "TOML parse error"
  | misfit excerpt => excerpt

def message (e : Unreadable) : String := "Failed to parse config file: " ++ e.reason

end Unreadable

def read (text : List Char) : Except Unreadable Settings :=
  match Toml.parse? text with
  | none => .error .malformed
  | some document =>
      match Decoder.settings ⟨text.length, 0⟩ document with
      | .ok s => .ok s
      | .error e => .error (.misfit (Toml.excerpt text e.span e.mismatch.message))

end Settings

end TwinScreen
