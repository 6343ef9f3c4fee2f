import TwinScreen.CommandLine.Usage
import TwinScreen.Fault

/-!
# Ends of commands

A command that has done its work ends with the code zero. What stops it earlier decides the code
and is reported on the error output, except for a help page that was asked for.
-/
namespace TwinScreen.CommandLine

/-- Why a command stopped before its work was done. -/
inductive Stop where
  | interrupted (interruption : Interruption)
  | failed (reason : String)
  | faulted (fault : Fault)
  deriving DecidableEq, Repr

structure Outcome where
  code : Nat
  output : String
  errors : String
  deriving DecidableEq, Repr

namespace Stop

def code : Stop → Nat
  | interrupted .helpWanted => 0
  | interrupted .commandWanted => 2
  | interrupted (.misuse _) => 2
  | failed _ => 1
  | faulted _ => 101

/-- The text of a fault; those of numbers and memory share one. -/
def faultText (f : Fault) : String := f.message?.getD "A number or a buffer is too large"

def output (help : String) : Stop → String
  | interrupted .helpWanted => help
  | _ => ""

/-- What a stopped command reports. -/
def errors (t : Terminal) (help : String) : Stop → String
  | interrupted .helpWanted => ""
  | interrupted .commandWanted => help
  | interrupted (.misuse m) => m.message t ++ "\n"
  | failed reason => "Error: " ++ reason ++ "\n"
  | faulted f => faultText f ++ "\n"

end Stop

namespace Outcome

def done (output : String) : Outcome := ⟨0, output, ""⟩

def stopped (t : Terminal) (help output : String) (stop : Stop) : Outcome :=
  ⟨stop.code, output ++ stop.output help, stop.errors t help⟩

end Outcome

end TwinScreen.CommandLine
