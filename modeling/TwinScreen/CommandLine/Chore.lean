import TwinScreen.CommandLine.Outcome

/-!
# Chores

The chores of development: checking, building and testing the program, and rendering a sample error
screen. The first argument is the name of a chore, the others are its own.
-/
namespace TwinScreen.CommandLine

/-- A part of the library with tests of its own. -/
inductive Area where
  | text
  | display
  | errorScreen
  deriving DecidableEq, Repr

namespace Area

def all : List Area := [text, display, errorScreen]

def name : Area → String
  | text => "text"
  | display => "display"
  | errorScreen => "error-screen"

/-- What the names of its tests start with. -/
def filter : Area → String
  | text => "text::"
  | display => "display::"
  | errorScreen => "error_screen::"

def parse (value : String) : Except Refusal Area :=
  match all.find? (·.name = value) with
  | some a => .ok a
  | none => .error (if value = "" then .empty else .unlisted)

end Area

structure Testing where
  examplesOnly : Bool
  area : Option Area
  deriving DecidableEq, Repr

structure Sample where
  /-- The file or directory for the image. -/
  target : String
  arrangement : Option String
  release : Bool
  deriving DecidableEq, Repr

inductive Chore where
  /-- Everything that must pass, perhaps with times. -/
  | pipeline (verbose : Bool)
  | format (checkOnly : Bool)
  | lint (fix : Bool)
  | build (release : Bool)
  | test (testing : Testing)
  | benchmark (filter : Option String)
  | render (sample : Sample)
  deriving DecidableEq, Repr

namespace Chore

def oneFlag (name : String) : Usage Bool := ⟨[⟨name, fun _ => true⟩], [], none⟩

def testUsage : Usage Testing where
  flags := [⟨"doc", fun t => { t with examplesOnly := true }⟩]
  options := [⟨"module", fun v t => do return { t with area := some (← Area.parse v) }⟩]
  operand := none

def benchmarkUsage : Usage (Option String) := ⟨[], [], some fun v _ => some v⟩

def renderUsage : Usage Sample where
  flags := [⟨"release", fun s => { s with release := true }⟩]
  options := [⟨"layout", fun v s => .ok { s with arrangement := some v }⟩]
  operand := some fun v s => { s with target := v }

def all : List (String × (List String → Except Interruption Chore)) := [
  ("ci", fun arguments => ((oneFlag "verbose").read false arguments).map pipeline),
  ("fmt", fun arguments => ((oneFlag "check").read false arguments).map format),
  ("clippy", fun arguments => ((oneFlag "fix").read false arguments).map lint),
  ("build", fun arguments => ((oneFlag "release").read false arguments).map build),
  ("test", fun arguments => (testUsage.read ⟨false, none⟩ arguments).map test),
  ("bench", fun arguments => (benchmarkUsage.read none arguments).map benchmark),
  ("render", fun arguments =>
    (renderUsage.read ⟨"error_screen.png", none, false⟩ arguments).map render)]

def help : String :=
  "Development automation for duoscreen\n\nUsage: x <COMMAND>\n\nCommands:\n" ++
    String.join (all.map fun c => "  " ++ c.1 ++ "\n") ++ "  help\n"

/-- Reads the words behind a wish for help, which may name a chore. -/
def readHelp : List String → Except Interruption Chore
  | [] => .error .helpWanted
  | word :: more =>
      if (all.lookup word).isSome ∨ word = "help" then
        match more with
        | [] => .error .helpWanted
        | surplus :: _ => .error (.misuse (.unknownCommand surplus))
      else .error (.misuse (.unknownCommand word))

/-- The usage of nothing, for the arguments in front of the name of a chore. -/
def noUsage : Usage Unit := ⟨[], [], none⟩

def read : List String → Except Interruption Chore
  | [] => .error .commandWanted
  | ["--"] => .error .commandWanted
  | "--" :: word :: _ =>
      if (all.lookup word).isSome ∨ word = "help" then .error (.misuse (.unexpected word))
      else .error (.misuse (.unknownCommand word))
  | "help" :: words => readHelp words
  | word :: arguments =>
      match all.lookup word with
      | some readArguments => readArguments arguments
      | none =>
          match word.toList with
          | '-' :: _ :: _ => do
              noUsage.read () [word]
              throw .commandWanted
          | _ => .error (.misuse (.unknownCommand word))

end Chore

end TwinScreen.CommandLine
