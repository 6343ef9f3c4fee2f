import TwinScreen.Toml.Number
import TwinScreen.Toml.Text

/-!
# Statements

A document is a sequence of statements, each on a line of its own: a value is assigned to a name,
or a header says to which table the assignments below it belong. Only values between brackets and
braces go on over several lines. Values nest at most 80 deep, and a dotted name has at most 80
parts.
-/
namespace TwinScreen.Toml

inductive Statement where
  | assign (path : List Key) (key : Key) (span : Span) (value : Value)
  /-- A header in brackets. -/
  | table (path : List Key) (key : Key) (span : Span)
  /-- A header in double brackets. -/
  | item (path : List Key) (key : Key) (span : Span)

namespace Reader

/-! ## Names -/

def isBare (c : Char) : Bool := c.isAlphanum || c == '_' || c == '-'

/-- A name that is not dotted. -/
def simpleName : Reader String := do
  match ← peek with
  | some '"' => shortText '"' true
  | some '\'' => shortText '\'' false
  | _ => do
      match ← takeWhile isBare with
      | [] => failure
      | name => return String.ofList name

def simpleKey : Reader Key := do
  let (span, name) ← spanned simpleName
  return ⟨name, span⟩

/-- How deep values may nest, and how many parts a dotted name may have. -/
def depthLimit : Nat := 80

/-- One more part of a dotted name, if a dot follows the parts so far. -/
def nextPart (parts : List Key × Key) : Reader (Round (List Key × Key) (List Key × Key)) := do
  skipWhile isSpace
  if ← accept '.' then
    skipWhile isSpace
    return .again (parts.1 ++ [parts.2], ← simpleKey)
  else return .done parts

/-- A dotted name: its last part and the path to it. Space behind it is taken too. -/
def dottedKey : Reader (List Key × Key) := do
  let first ← simpleKey
  let (path, key) ← loop nextPart ([], first)
  if path.length < depthLimit then return (path, key) else failure

/-! ## Values -/

/-- A character of a value without marks around it: all but those that separate values. -/
def isUnmarked (c : Char) : Bool :=
  !([' ', '\t', '\n', '\r', '=', ',', '[', ']', '\x7b', '\x7d', '#'].contains c)

/-- The time that may follow a date behind a single space. -/
def spacedTime (date : List Char) : Reader (List Char) := do
  match ← get with
  | ' ' :: d :: _ =>
      if afterDate? date = some [] && d.isDigit then do
        expect ' '
        return date ++ ' ' :: (← takeWhile isUnmarked)
      else return date
  | _ => return date

/-- A value outside of brackets and braces. -/
def simpleValue : Reader Value := do
  match ← peek with
  | some '"' => return .text (← anyText '"' true)
  | some '\'' => return .text (← anyText '\'' false)
  | _ => do
      let written ← spacedTime (← takeWhile isUnmarked)
      match Value.ofWritten? written with
      | some v => return v
      | none => failure

def list (item : Reader Value) : Reader Value := do
  expect '['
  loop
    (fun items => do
      gap
      if ← accept ']' then return .done (.list false items)
      let items := items ++ [← spanned item]
      gap
      if ← accept ',' then return .again items
      expect ']'
      return .done (.list false items))
    []

/-- A name, an equals sign and a value, with space around the sign. -/
def assignment (space : Reader Unit) (value : Reader Value) :
    Reader (List Key × Key × Span × Value) := do
  let (path, key) ← dottedKey
  space
  expect '='
  space
  return (path, key, ← spanned value)

def inlineTable (value : Reader Value) : Reader Value := do
  expect '\x7b'
  loop
    (fun t => do
      gap
      if ← accept '\x7d' then return .done t
      let (path, key, span, v) ← assignment gap value
      match t.assign path key span v with
      | none => failure
      | some t => do
          gap
          if ← accept ',' then return .again t
          expect '\x7d'
          return .done t)
    (.table .inline [])

def value : Nat → Reader Value
  | 0 => simpleValue
  | depth + 1 => do
      match ← peek with
      | some '[' => list (value depth)
      | some '\x7b' => inlineTable (value depth)
      | _ => simpleValue

/-! ## Lines -/

def headerKey : Reader (List Key × Key) := do
  skipWhile isSpace
  dottedKey

def header : Reader Statement := do
  let (span, doubled, path, key) ← spanned do
    expect '['
    if ← accept '[' then
      let (path, key) ← headerKey
      expect ']'
      expect ']'
      return (true, path, key)
    else
      let (path, key) ← headerKey
      expect ']'
      return (false, path, key)
  return if doubled then .item path key span else .table path key span

def statement : Reader Statement := do
  let s ← match ← peek with
    | some '[' => header
    | _ => do
        let (path, key, span, v) ← assignment (skipWhile isSpace) (value depthLimit)
        pure (.assign path key span v)
  lineEnd
  return s

/-- One more line: a statement, space and a comment, or the end of the text. -/
def nextLine (before : List Statement) : Reader (Round (List Statement) (List Statement)) := do
  skipWhile isSpace
  match ← peek with
  | none => return .done before
  | some '#' | some '\n' | some '\r' => do
      lineEnd
      return .again before
  | some _ => return .again (before ++ [← statement])

def statements : Reader (List Statement) := loop nextLine []

end Reader

/-- The statements of a text. A byte order mark in front does not count. -/
def statements? (text : List Char) : Option (List Statement) :=
  let text := match text with
    | '\ufeff' :: rest => rest
    | s => s
  (Reader.statements.run text).map Prod.fst

end TwinScreen.Toml
