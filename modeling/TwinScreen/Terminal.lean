/-!
# Styled text

A terminal shows text in a style between two escape sequences: one that turns the style on and one
that turns every style off. A terminal without colors is sent the text alone.
-/
namespace TwinScreen

inductive Style where
  | bold
  | red
  | green
  | yellow
  | blue
  | cyan
  deriving DecidableEq, Repr

namespace Style

def code : Style → String
  | bold => "1"
  | red => "31"
  | green => "32"
  | yellow => "33"
  | blue => "34"
  | cyan => "36"

end Style

structure Terminal where
  colored : Bool
  deriving DecidableEq, Repr

namespace Terminal

def turnOn (styles : List Style) : String :=
  "\x1b[" ++ String.intercalate ";" (styles.map Style.code) ++ "m"

def turnOff : String := "\x1b[0m"

/-- Text in a style. Where the text itself turns all attributes off, the style is turned on
again. -/
def paint (t : Terminal) (styles : List Style) (text : String) : String :=
  if t.colored then
    let on := turnOn styles
    on ++ String.intercalate (turnOff ++ on) (text.splitOn turnOff) ++ turnOff
  else
    text

/-- Text after one sequence for each of its attributes, or plain text for none. -/
def mark (styles : List Style) (text : String) : String :=
  if styles = [] then text else String.join (styles.map fun s => turnOn [s]) ++ text ++ turnOff

end Terminal

end TwinScreen
