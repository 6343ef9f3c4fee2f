/-!
# Values of a document

A document in the TOML format is a table of named values; values are texts, numbers, truth values,
moments, lists and tables. Every value and every name remembers which part of the document it was
read from, counted from the end of the document. The entries of a table are ascending in their
names.

Tables grow while a document is read: a header or a dotted name leads through tables that may have
to be made on the way. What may be added to a table later depends on its origin.
-/
namespace TwinScreen.Toml

/-- A part of a text: how many characters of the text follow its start and its end. -/
structure Span where
  start : Nat
  stop : Nat
  deriving DecidableEq, Repr

structure Key where
  name : String
  span : Span
  deriving DecidableEq, Repr

inductive Fractional where
  | notANumber
  | infinite (negative : Bool)
  /-- The number `digits * 10 ^ exponent`. -/
  | finite (negative : Bool) (digits : Nat) (exponent : Int)
  deriving DecidableEq, Repr

/-- How a table came to be. -/
inductive Origin where
  /-- A header leads through it. -/
  | implied
  /-- A dotted name leads through it. -/
  | dotted
  /-- It has a header of its own, or is the whole document. -/
  | header
  /-- It is written between braces. -/
  | inline
  deriving DecidableEq, Repr

inductive Value where
  | text (s : String)
  | integer (z : Int)
  /-- What is written like a whole number, but whose digits make none. -/
  | garbled
  | fractional (x : Fractional)
  | boolean (b : Bool)
  /-- A date, a time or both. -/
  | moment
  /-- A list. One that is made of headers in double brackets may grow. -/
  | list (growing : Bool) (items : List (Span × Value))
  | table (origin : Origin) (entries : List (Key × Span × Value))

abbrev Entry : Type := Key × Span × Value

def alter (name : String) (change : Option Entry → Option Entry) :
    List Entry → Option (List Entry)
  | [] => do return [← change none]
  | e :: others =>
      if name = e.1.name then do return (← change (some e)) :: others
      else if name < e.1.name then do return (← change none) :: e :: others
      else do return e :: (← alter name change others)

def alterLast (change : Value → Option Value) :
    List (Span × Value) → Option (List (Span × Value))
  | [] => none
  | [(span, v)] => do return [(span, ← change v)]
  | item :: others => do return item :: (← alterLast change others)

namespace Origin

/-- A path may lead through a table of this origin: one of headers through all but tables in
braces, a dotted name through those that are not written out. -/
def allows (origin : Origin) (byDots : Bool) : Bool :=
  match origin with
  | implied | dotted => true
  | header => !byDots
  | inline => false

end Origin

namespace Value

/-- Changes the entry of a table that has a name. -/
def alterEntry (name : String) (change : Option Entry → Option Entry) : Value → Option Value
  | table origin entries => (alter name change entries).map (table origin)
  | _ => none

/-- The table that a path makes where nothing stands yet. -/
def made (byDots : Bool) : Value := table (if byDots then .dotted else .implied) []

/-- Changes the table that a name on a path leads to. One that is missing is made, and of a growing
list it is the last one. -/
def onward (byDots : Bool) (key : Key) (change : Value → Option Value) :
    Option Entry → Option Entry
  | none => (change (made byDots)).map fun t => (key, key.span, t)
  | some (k, span, table origin entries) =>
      if origin.allows byDots then (change (table origin entries)).map fun t => (k, span, t)
      else none
  | some (k, span, list true items) =>
      (alterLast change items).map fun items => (k, span, list true items)
  | some _ => none

/-- Changes the table at the end of a path. -/
def under (byDots : Bool) (change : Value → Option Value) : List Key → Value → Option Value
  | [], v => change v
  | key :: path, v => alterEntry key.name (onward byDots key (under byDots change path)) v

/-- A dotted name ends in a table that dotted names have made. -/
def endsDots (path : List Key) : Value → Bool
  | table origin _ => path.isEmpty || origin == .dotted
  | _ => false

/-- An entry for a name that is still free. -/
def free (e : Entry) : Option Entry → Option Entry
  | none => some e
  | some _ => none

/-- Adds a value under a dotted name that is still free. -/
def assign (target : Value) (path : List Key) (key : Key) (span : Span) (v : Value) :
    Option Value :=
  under true
    (fun t => if endsDots path t then alterEntry key.name (free (key, span, v)) t else none)
    path target

/-- The table of a header. A table that is only implied so far becomes this one. -/
def opened (key : Key) (span : Span) : Option Entry → Option Entry
  | none => some (key, span, table .header [])
  | some (_, _, table .implied entries) => some (key, span, table .header entries)
  | some _ => none

def openTable (target : Value) (path : List Key) (key : Key) (span : Span) : Option Value :=
  under false (alterEntry key.name (opened key span)) path target

/-- Opens one more table of a growing list. -/
def openItem (target : Value) (path : List Key) (key : Key) (span : Span) : Option Value :=
  under false
    (alterEntry key.name fun
      | none => some (key, span, list true [(span, table .header [])])
      | some (k, s, list true items) =>
          some (k, s, list true (items ++ [(span, table .header [])]))
      | some _ => none)
    path target

end Value

end TwinScreen.Toml
