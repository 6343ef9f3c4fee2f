import TwinScreen.Color.Notation
import TwinScreen.Arrangement
import TwinScreen.Decimal.Shortest
import TwinScreen.Toml.Value

/-!
# Documents that are no settings

A document can be read and still have values that do not fit: of another kind than expected, outside
of a range, with an unknown name, or with a part missing. A misfit says which value it is and why it
does not fit.
-/
namespace TwinScreen

open Toml

/-- The description of a value, unless it is a number that no kind of number can hold. -/
inductive Described where
  | known (description : String)
  | wholeTooLarge
  | fractionTooLarge
  deriving DecidableEq, Repr

namespace Described

def ofFractional : Fractional → Described
  | .notANumber => known "floating point `NaN`"
  | .infinite negative =>
      known (if negative then "floating point `-inf`" else "floating point `inf`")
  | .finite negative digits exponent =>
      match Decimal.Binary64.ofDecimal? digits exponent with
      | some x =>
          known (String.join ["floating point `", if negative then "-" else "",
            String.ofList (Decimal.render x), "`"])
      | none => fractionTooLarge

/-- Signed whole numbers of 128 bits lie between the negative of this bound and the bound. -/
def longBound : Int := 0x80000000000000000000000000000000

/-- The text of a whole number. One that takes more than 64 bits is named with its width. -/
def ofInteger (z : Int) : Described :=
  if -0x8000000000000000 ≤ z ∧ z < 0x10000000000000000 then known s!"integer `{z}`"
  else if -longBound ≤ z ∧ z < longBound then known s!"integer `{z}` as i128"
  else if 0 ≤ z ∧ z < 2 * longBound then known s!"integer `{z}` as u128"
  else wholeTooLarge

def ofValue : Value → Described
  | .text s => known ("string " ++ Text.quoted s)
  | .integer z => ofInteger z
  | .garbled => wholeTooLarge
  | .fractional x => ofFractional x
  | .boolean b => known s!"boolean `{b}`"
  | .list _ _ => known "sequence"
  | .moment | .table _ _ => known "map"

end Described

inductive Mismatch where
  | kind (found expected : String)
  | range (z : Int) (expected : String)
  /-- No kind of number can hold the whole number, or it is none. -/
  | wholeTooLarge
  /-- No kind of number can hold the floating-point number. -/
  | fractionTooLarge
  | missing (name : String)
  /-- A list without names has too few items. -/
  | tooFew (count : Nat) (expected : String)
  | color (unreadable : Color.Unreadable)
  | unknownArrangement (name : String)
  | noArrangement
  | noEntry
  | severalEntries
  /-- Something stands where nothing belongs. -/
  | notEmpty (wanted : String)
  | notTable (found : String)
  deriving DecidableEq, Repr

namespace Mismatch

def ticked (s : String) : String := "`" ++ s ++ "`"

def message : Mismatch → String
  | kind found expected => "invalid type: " ++ found ++ ", expected " ++ expected
  | range z expected => s!"invalid value: integer `{z}`, expected " ++ expected
  | wholeTooLarge => "integer number overflowed"
  | fractionTooLarge => "floating-point number overflowed"
  | missing name => "missing field " ++ ticked name
  | tooFew count expected => s!"invalid length {count}, expected " ++ expected
  | color e => e.message
  | unknownArrangement name =>
      "unknown variant " ++ ticked name ++ ", expected one of " ++
        String.intercalate ", " (Arrangement.all.map fun a => ticked a.name)
  | noArrangement => "wanted string or table"
  | noEntry => "wanted exactly 1 element, found 0 elements"
  | severalEntries => "wanted exactly 1 element, more than 1 element"
  | notEmpty wanted => "expected empty " ++ wanted
  | notTable found => "expected table, found " ++ found

end Mismatch

structure Misfit where
  span : Span
  mismatch : Mismatch
  deriving DecidableEq, Repr

end TwinScreen
