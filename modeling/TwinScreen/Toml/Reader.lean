import TwinScreen.Toml.Value

/-!
# Reading from the front of a text

A reader takes some characters from the front of a text and makes a result of them, or refuses the
text. Places in the text are known by the number of characters that follow.
-/
namespace TwinScreen.Toml

/-- Takes characters from the front of a text. -/
abbrev Reader (α : Type) : Type := StateT (List Char) Option α

namespace Reader

variable {σ α : Type}

def next : Reader Char
  | c :: rest => some (c, rest)
  | [] => none

/-- The next character, if there is one, without taking it. -/
def peek : Reader (Option Char) := fun s => some (s.head?, s)

def expect (c : Char) : Reader Unit
  | d :: rest => if d = c then some ((), rest) else none
  | [] => none

/-- Takes a certain character if it comes next, and says whether. -/
def accept (c : Char) : Reader Bool
  | d :: rest => if d = c then some (true, rest) else some (false, d :: rest)
  | [] => some (false, [])

def takeWhile (kind : Char → Bool) : Reader (List Char) := fun s =>
  some (s.takeWhile kind, s.dropWhile kind)

def skipWhile (kind : Char → Bool) : Reader Unit := fun s => some ((), s.dropWhile kind)

def left : Reader Nat := fun s => some (s.length, s)

/-- A result with the part of the text it was read from. -/
def spanned (reader : Reader α) : Reader (Span × α) := do
  let start ← left
  let a ← reader
  return (⟨start, ← left⟩, a)

/-- What a round of a loop comes to. -/
inductive Round (σ α : Type) where
  | again (state : σ)
  | done (result : α)

/-- Repeats a reader. A round that asks for another one must have taken something. -/
def loop (round : σ → Reader (Round σ α)) (state : σ) : Reader α := fun s =>
  match round state s with
  | none => none
  | some (.done a, rest) => some (a, rest)
  | some (.again state, rest) =>
      if _h : rest.length < s.length then loop round state rest else none
termination_by s => s.length

/-! ## Blank space -/

def isSpace (c : Char) : Bool := c == ' ' || c == '\t'

/-- A character that may stand in comments and texts as itself. -/
def isPlain (c : Char) : Bool := c == '\t' || (0x20 ≤ c.toNat && c != '\x7f')

/-- Takes a line break or finds the end of the text. -/
def lineBreak : Reader Unit
  | '\n' :: rest => some ((), rest)
  | '\r' :: '\n' :: rest => some ((), rest)
  | [] => some ((), [])
  | _ => none

/-- Takes what may follow on a line: space and a comment. -/
def lineEnd : Reader Unit := do
  skipWhile isSpace
  if ← accept '#' then
    skipWhile isPlain
  lineBreak

/-- Takes space, comments and line breaks. -/
def gap : Reader Unit :=
  loop
    (fun () => do
      skipWhile isSpace
      match ← peek with
      | some '#' | some '\n' | some '\r' => do
          lineEnd
          return .again ()
      | _ => return .done ())
    ()

end Reader

end TwinScreen.Toml
