import TwinScreen.Text.Quoted

/-!
# Diagnostics

A diagnostic says in a few technical words why the program could not start, and tells the user what
to do about it.
-/
namespace TwinScreen

structure Diagnostic where
  /-- The failure in technical terms. -/
  summary : String
  /-- Instructions for the user. -/
  remediation : String
  deriving DecidableEq, Repr

namespace Diagnostic

/-- The diagnostic of a failure with its chain of causes, the outermost first. -/
def ofCauses (failure : String) (causes : List String) (remediation : String) : Diagnostic :=
  ⟨String.intercalate ": " (failure :: causes), remediation⟩

def describe (d : Diagnostic) : String :=
  String.join ["DiagnosticMessage \x7b summary: ", Text.quoted d.summary,
    ", remediation: ", Text.quoted d.remediation, " \x7d"]

end Diagnostic

end TwinScreen
