import TwinScreen.Screen
import TwinScreen.Text.Blank
import TwinScreen.Text.Quoted

/-!
# Arrangements of the two screens

The handheld has a top and a bottom screen of 256×192 pixels; the host shows one image. An
arrangement places the screens above or beside each other, in either order, with a gap between
them, or shows one of them alone.
-/
namespace TwinScreen

/-- How the two screens form one image. -/
inductive Arrangement where
  | topBottom
  | bottomTop
  | leftRight
  | rightLeft
  | topOnly
  | bottomOnly
  deriving DecidableEq, Repr, Inhabited

namespace Arrangement

def all : List Arrangement := [topBottom, bottomTop, leftRight, rightLeft, topOnly, bottomOnly]

def name : Arrangement → String
  | topBottom => "top-bottom"
  | bottomTop => "bottom-top"
  | leftRight => "left-right"
  | rightLeft => "right-left"
  | topOnly => "top-only"
  | bottomOnly => "bottom-only"

def label : Arrangement → String
  | topBottom => "TopBottom"
  | bottomTop => "BottomTop"
  | leftRight => "LeftRight"
  | rightLeft => "RightLeft"
  | topOnly => "TopOnly"
  | bottomOnly => "BottomOnly"

/-- Width and height of the combined image, with `gap` pixels between the screens. -/
def size (a : Arrangement) (gap : Nat) : Except Fault (Nat × Nat) :=
  match a with
  | topBottom | bottomTop => do return (screenWidth, ← Size.add (screenHeight * 2) gap)
  | leftRight | rightLeft => do return (← Size.add (screenWidth * 2) gap, screenHeight)
  | topOnly | bottomOnly => return (screenWidth, screenHeight)

structure Origins where
  top : Option (Nat × Nat)
  bottom : Option (Nat × Nat)
  deriving DecidableEq, Repr

/-- The corners of the screens; a hidden screen has none. Both distances must be sizes, also where
only one screen is shown. -/
def origins (a : Arrangement) (gap : Nat) : Except Fault Origins := do
  let below := (0, ← Size.add screenHeight gap)
  let beside := (← Size.add screenWidth gap, 0)
  return match a with
    | topBottom => ⟨some (0, 0), some below⟩
    | bottomTop => ⟨some below, some (0, 0)⟩
    | leftRight => ⟨some (0, 0), some beside⟩
    | rightLeft => ⟨some beside, some (0, 0)⟩
    | topOnly => ⟨some (0, 0), none⟩
    | bottomOnly => ⟨none, some (0, 0)⟩

/-- A name that no arrangement has. -/
structure Unknown where
  text : String
  deriving DecidableEq, Repr

namespace Unknown

def message (e : Unknown) : String := "Unknown screen layout " ++ Text.quoted e.text

end Unknown

/-- A name as it is compared: without blank characters around it, in lower case, and with hyphens
for underscores. -/
def plainName (s : String) : String :=
  String.ofList ((Text.trim s.toList).map fun c => if c = '_' then '-' else c.toLower)

def parse (s : String) : Except Unknown Arrangement :=
  match all.find? fun a => a.name == plainName s with
  | some a => .ok a
  | none => .error ⟨s⟩

end Arrangement

end TwinScreen
