import TwinScreen.Text.Hexadecimal
import TwinScreen.Toml.Reader

/-!
# Written texts

A text stands between quotation marks, with escapes, or between apostrophes, without. Three marks
in a row enclose a text of several lines, in which a line break right after the opening marks does
not count, and in which a backslash at the end of a line joins it with the next text.
-/
namespace TwinScreen.Toml.Reader

/-- A character by its code point in `count` hexadecimal digits. -/
def codePoint (count : Nat) : Reader Char := do
  let digits ← (List.replicate count ()).mapM fun _ => do
    match Hexadecimal.value? (← next) with
    | some n => return n
    | none => failure
  let n := digits.foldl (fun n d => 16 * n + d) 0
  if n.isValidChar then return Char.ofNat n else failure

def escaped : Reader Char := do
  match ← next with
  | 'b' => return '\x08'
  | 't' => return '\t'
  | 'n' => return '\n'
  | 'f' => return '\x0c'
  | 'r' => return '\r'
  | 'e' => return '\x1b'
  | '"' => return '"'
  | '\\' => return '\\'
  | 'x' => codePoint 2
  | 'u' => codePoint 4
  | 'U' => codePoint 8
  | _ => failure

/-- The rest of a text on one line, up to the closing mark. `before` is reversed. -/
def lineText (mark : Char) (escapes : Bool) : Reader String :=
  loop
    (fun before => do
      let c ← next
      if c = mark then return .done (String.ofList before.reverse)
      else if c = '\\' && escapes then return .again ((← escaped) :: before)
      else if isPlain c then return .again (c :: before)
      else failure)
    []

def breakText : Reader (List Char)
  | '\n' :: rest => some (['\n'], rest)
  | '\r' :: '\n' :: rest => some (['\r', '\n'], rest)
  | _ => none

/-- Space with at least one line break, behind a backslash. -/
def joint : Reader Unit := do
  skipWhile isSpace
  let _ ← breakText
  loop
    (fun () => do
      skipWhile isSpace
      match ← peek with
      | some '\n' | some '\r' => do
          let _ ← breakText
          return .again ()
      | _ => return .done ())
    ()

/-- A backslash in a text of several lines joins lines if it is the last character of one. -/
def joinsLines (rest : List Char) : Bool :=
  match rest.dropWhile isSpace with
  | '\n' :: _ => true
  | '\r' :: '\n' :: _ => true
  | _ => false

/-- The rest of a text of several lines, up to the closing marks. Up to two more marks in front of
them belong to the text. -/
def linesText (mark : Char) (escapes : Bool) : Reader String :=
  loop
    (fun before => do
      match ← peek with
      | none => failure
      | some c =>
          if c = mark then
            let marks ← takeWhile fun d => d == mark
            if marks.length < 3 then return .again (marks ++ before)
            else if marks.length ≤ 5 then
              return .done (String.ofList (marks.drop 3 ++ before).reverse)
            else failure
          else if c = '\\' && escapes then
            let _ ← next
            if joinsLines (← get) then
              joint
              return .again before
            else return .again ((← escaped) :: before)
          else if c = '\n' || c = '\r' then
            return .again ((← breakText).reverse ++ before)
          else if isPlain c then
            let _ ← next
            return .again (c :: before)
          else failure)
    []

def shortText (mark : Char) (escapes : Bool) : Reader String := do
  expect mark
  lineText mark escapes

/-- Passes over a line break right behind opening marks. -/
def skipFirstBreak : Reader Unit
  | '\n' :: rest => some ((), rest)
  | '\r' :: '\n' :: rest => some ((), rest)
  | s => some ((), s)

def anyText (mark : Char) (escapes : Bool) : Reader String := do
  if (← get).take 3 = [mark, mark, mark] then
    expect mark
    expect mark
    expect mark
    skipFirstBreak
    linesText mark escapes
  else shortText mark escapes

end TwinScreen.Toml.Reader
