import TwinScreen.Color.Notation
import TwinScreen.Settings

/-!
# Writing settings

All settings are written, group by group: a header, a line for each value, and an empty line between
two groups.
-/
namespace TwinScreen.Settings

def headerLine (name : String) : List Char := '[' :: name.toList ++ [']', '\n']

def valueLine (name : String) (value : List Char) : List Char :=
  name.toList ++ [' ', '=', ' '] ++ value ++ ['\n']

def numberLine (name : String) (n : Nat) : List Char := valueLine name (Nat.toDigits 10 n)

def textLine (name : String) (text : List Char) : List Char :=
  valueLine name ('"' :: text ++ ['"'])

def schemeLines (name : String) (s : Scheme) : List Char :=
  headerLine name ++ textLine "background" s.background.written ++
    textLine "foreground" s.foreground.written

def written (s : Settings) : List Char :=
  headerLine "drawing" ++
    numberLine "title_font_height" s.sizes.title.toNat ++
    numberLine "body_font_height" s.sizes.body.toNat ++
    numberLine "margin" s.sizes.margin.toNat ++
  '\n' :: headerLine "wrap" ++
    numberLine "line_width" s.wrapping.lineWidth.toNat ++
    numberLine "wide_glyph_width" s.wrapping.wideGlyphWidth.toNat ++
    numberLine "max_lines" s.wrapping.maxLines.toNat ++
  '\n' :: schemeLines "colors.top" s.schemes.top ++
  '\n' :: schemeLines "colors.bottom" s.schemes.bottom ++
  '\n' :: headerLine "layout" ++
    textLine "layout" s.placement.arrangement.name.toList ++
    numberLine "screen_gap" s.placement.gap.toNat

def print (s : Settings) : String := String.ofList s.written

end TwinScreen.Settings
