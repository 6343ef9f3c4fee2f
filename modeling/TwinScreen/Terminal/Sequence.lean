import TwinScreen.Terminal

/-!
# Control sequences

A control sequence in a text tells a terminal to do something and is not seen. It starts with the
escape character; its form depends on the character behind that. Control characters are not seen
either, apart from those that are blank.
-/
namespace TwinScreen.Terminal

/-- Where a text stands within a control sequence. -/
inductive Sequence where
  /-- Between control sequences. -/
  | outside
  /-- Behind the escape character. -/
  | escape
  /-- In an escape with marks in front of its last character. -/
  | marked
  /-- In a sequence of numbers that a letter ends. -/
  | numbers
  /-- In front of the numbers, marks and letter of a command to a device. -/
  | device
  /-- In the numbers of a command to a device. -/
  | deviceNumbers
  /-- In the marks of a command to a device. -/
  | deviceMarks
  /-- In a text that the byte `9C` ends. -/
  | string
  /-- In a text that the bell ends. -/
  | title
  deriving DecidableEq, Repr

namespace Sequence

/-- A mark in front of the last character of a sequence. -/
def isMark (b : UInt8) : Bool := 0x20 ≤ b && b ≤ 0x2F

/-- A digit or a separator of numbers. -/
def isNumeric (b : UInt8) : Bool := 0x30 ≤ b && b ≤ 0x3F

/-- A character that may end a sequence. -/
def isLast (b : UInt8) : Bool := 0x40 ≤ b && b ≤ 0x7E

/-- The sequence that this character opens behind the escape character. -/
def opened (b : UInt8) : Sequence :=
  if b = 0x5B then numbers
  else if b = 0x5D then title
  else if b = 0x50 then device
  else if b = 0x58 || b = 0x5E || b = 0x5F then string
  else outside

def step (s : Sequence) (b : UInt8) : Sequence :=
  if b = 0x1B then escape
  else if b = 0x18 || b = 0x1A then outside
  else
    match s with
    | outside => outside
    | escape =>
        if isMark b then marked else if isNumeric b || isLast b then opened b else escape
    | marked => if isNumeric b || isLast b then outside else marked
    | numbers => if isLast b then outside else numbers
    | device =>
        if isMark b then deviceMarks
        else if isLast b || b = 0x3A then string
        else if isNumeric b then deviceNumbers
        else device
    | deviceNumbers =>
        if isMark b then deviceMarks
        else if isLast b || b = 0x3A || (0x3C ≤ b && b ≤ 0x3F) then string
        else deviceNumbers
    | deviceMarks => if isNumeric b || isLast b then string else deviceMarks
    | string => if b = 0x9C then outside else string
    | title => if b = 0x07 then outside else title

def after (s : Sequence) (c : Char) : Sequence := (String.utf8EncodeChar c).foldl step s

def isBlankControl (c : Char) : Bool := c == '\t' || c == '\n' || c == '\x0c' || c == '\r'

/-- The character is seen. Blank control characters are seen within a sequence too. -/
def shows (s : Sequence) (c : Char) : Bool :=
  match s with
  | outside => isBlankControl c || (' ' ≤ c && c != '\x7f')
  | escape | marked | numbers => isBlankControl c
  | device | deviceNumbers | deviceMarks | string | title => false

/-- The characters that are seen. Behind a character that is seen, a sequence that it interrupts
goes on only at the next character that is not seen outside of sequences. -/
def visible (seen : Bool) (s : Sequence) : List Char → List Char
  | [] => []
  | c :: rest =>
      if shows (if seen then outside else s) c then
        c :: visible true (if c.toNat < 0x80 then s else outside) rest
      else visible false (s.after c) rest

end Sequence

/-- A styled text as a terminal is sent it: without control sequences, if it has no colors. -/
def send (t : Terminal) (styled : String) : String :=
  if t.colored then styled else String.ofList (Sequence.visible false .outside styled.toList)

end TwinScreen.Terminal
