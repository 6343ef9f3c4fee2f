import TwinScreen.Text.Paragraph
import TwinScreen.Toml.Value

/-!
# Pointing at a part of a document

A message about a part of a document names its line and column, shows the line, and marks the part
below it with carets: one for each byte of the part that is on this line.
-/
namespace TwinScreen.Toml

structure Place where
  line : Nat
  column : Nat
  deriving DecidableEq, Repr

def Place.behind (text : List Char) : Place :=
  let lines := Text.lines text
  ⟨lines.length - 1, (lines.getLastD []).length⟩

/-- The message about a part of a document, with the reason on the last line. -/
def excerpt (text : List Char) (span : Span) (reason : String) : String :=
  let place := Place.behind (text.take (text.length - span.start))
  let marked := (text.drop (text.length - span.start)).take (span.start - span.stop)
  let line := (Text.lines text).getD place.line []
  let carets := max 1 (min (Text.utf8Length marked) (Text.utf8Length line - place.column))
  let number := toString (place.line + 1)
  let margin := String.ofList (List.replicate (number.length + 1) ' ')
  String.join
    [s!"TOML parse error at line {number}, column {place.column + 1}\n",
      margin, "|\n",
      number, " | ", String.ofList line, "\n",
      margin, "|", String.ofList (List.replicate (place.column + 1) ' '),
      String.ofList (List.replicate carets '^'), "\n",
      reason, "\n"]

end TwinScreen.Toml
