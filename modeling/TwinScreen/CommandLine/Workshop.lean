import TwinScreen.CommandLine.Chore
import TwinScreen.Screenshot

/-!
# Doing chores

A chore runs the build program, once or several times, and reports on the terminal. The first run
that fails ends the chore. A sample is rendered by running the viewer through the build program,
which has to leave an image where it was asked for.
-/
namespace TwinScreen.CommandLine

inductive Signal where
  | kill
  | terminate
  deriving DecidableEq, Repr

namespace Signal

def text : Signal → String
  | kill => "9 (SIGKILL)"
  | terminate => "15 (SIGTERM)"

end Signal

inductive ExitStatus where
  | code (n : Nat)
  | signal (s : Signal)
  deriving DecidableEq, Repr

namespace ExitStatus

def text : ExitStatus → String
  | code n => s!"exit status: {n}"
  | signal s => "signal: " ++ s.text

end ExitStatus

structure Workshop where
  terminal : Terminal
  temporary : String
  /-- What the build program does when it is run with these arguments after so many other runs. An
  error says that it cannot be started. -/
  build : Nat → List String → Disk → Except FileError (ExitStatus × Disk)
  /-- The hundredths of a second that have passed after so many runs. -/
  clock : Nat → Nat

/-- What a chore has printed and run, and the files. -/
structure Working where
  output : String
  /-- The arguments of every run of the build program, in order. -/
  runs : List (List String)
  disk : Disk

abbrev ChoreStep (α : Type) : Type := EStateM Stop Working α

namespace Workshop

def say (text : String) : ChoreStep Unit := modify fun w => { w with output := w.output ++ text }

def stopFor (e : FileError) : Stop := .failed e.reason

def run (shop : Workshop) (arguments : List String) : ChoreStep Unit := fun w =>
  match shop.build w.runs.length arguments w.disk with
  | .error e => .error (stopFor e) w
  | .ok (status, disk) =>
      let w := { w with runs := w.runs ++ [arguments], disk }
      if status = .code 0 then .ok () w
      else .error (.failed ("Command failed with exit code: " ++ status.text)) w

def now (shop : Workshop) : ChoreStep Nat := do return shop.clock (← get).runs.length

def seconds (n : Nat) : String := s!"{n / 100}." ++ Timestamp.padded 2 (n % 100) ++ "s"

def testArguments (t : Testing) : List String :=
  match t.examplesOnly, t.area with
  | true, _ => ["test", "--doc"]
  | false, some area => ["test", "--lib", area.filter]
  | false, none => ["test", "--workspace"]

def sampleArguments (s : Sample) : List String :=
  ["run", "--package", "duoscreen"] ++ (if s.release then ["--release"] else []) ++
    ["--", "--screenshot", s.target] ++
    (match s.arrangement with
     | some name => ["--layout", name]
     | none => [])

/-- The mark in front of what is going on. -/
def arrow (shop : Workshop) : String := shop.terminal.paint [.blue] "→"

def tick (shop : Workshop) : String := shop.terminal.paint [.bold, .green] "✓"

def cross (shop : Workshop) : String := shop.terminal.paint [.bold, .red] "✗"

def isImageName (path : String) : Bool :=
  (path.toList.map Char.toLower).reverse.take 4 = ['g', 'n', 'p', '.']

/-- Renders a sample and checks that it is there. -/
def makeSample (shop : Workshop) (s : Sample) : ChoreStep Unit := do
  let isDirectory := (← get).disk.isDirectory s.target
  if !isDirectory && !isImageName s.target then
    say (shop.terminal.paint [.bold, .yellow] "⚠" ++ " File does not have .png extension\n")
  shop.run (sampleArguments s)
  if !isDirectory && !(← get).disk.exists? s.target then
    throw (.failed ("Renderer exited successfully but " ++ s.target ++ " was not written"))

def render (shop : Workshop) (s : Sample) : ChoreStep Unit := do
  let paint := shop.terminal.paint
  say (paint [.bold, .blue] "=== Render Error Screen ===" ++ "\n")
  say (shop.arrow ++ " Output: " ++ paint [.cyan] s.target ++ "\n")
  say (shop.arrow ++ " Layout: " ++ paint [.bold] (s.arrangement.getD "top-bottom") ++ "\n")
  say (shop.arrow ++ " Build mode: " ++
    (if s.release then paint [.bold, .green] "release" else paint [.bold, .yellow] "debug") ++
    "\n\n")
  let start ← shop.now
  shop.makeSample s
  say ("\n" ++ shop.tick ++ " Rendered to " ++ paint [.cyan] s.target ++ " in " ++
    paint [.bold] (seconds ((← shop.now) - start)) ++ "\n")

def pipelineStep (shop : Workshop) (verbose : Bool) (name : String) (step : ChoreStep Unit) :
    ChoreStep Unit := do
  say (shop.arrow ++ " " ++ name ++ " ... ")
  let start ← shop.now
  try
    step
  catch stop =>
    say (shop.cross ++ "\n")
    throw stop
  let time := seconds ((← shop.now) - start)
  say (shop.tick ++ (if verbose then " (" ++ time ++ ")" else "") ++ "\n")

/-- Makes a directory where the pipeline renders its sample. -/
def sampleDirectory (shop : Workshop) : ChoreStep String := fun w =>
  let path := Path.join shop.temporary "duoscreen-ci"
  match DiskStep.makeDirectories path w.disk with
  | .ok () disk => .ok path { w with disk }
  | .error e disk => .error (stopFor e) { w with disk }

def formatArguments (checkOnly : Bool) : List String :=
  ["fmt", "--all"] ++ (if checkOnly then ["--", "--check"] else [])

def lintArguments (fix : Bool) : List String :=
  ["clippy", "--workspace", "--all-targets"] ++
    (if fix then ["--fix"] else ["--", "-D", "warnings"])

def pipeline (shop : Workshop) (verbose : Bool) : ChoreStep Unit := do
  let paint := shop.terminal.paint
  say (paint [.bold, .blue] "=== Running CI Pipeline ===" ++ "\n")
  let start ← shop.now
  let target ← shop.sampleDirectory
  shop.pipelineStep verbose "Format Check" (shop.run (formatArguments true))
  shop.pipelineStep verbose "Clippy" (shop.run (lintArguments false))
  shop.pipelineStep verbose "Test" (shop.run (testArguments ⟨false, none⟩))
  shop.pipelineStep verbose "Render" (shop.makeSample ⟨target, none, false⟩)
  say ("\n" ++ paint [.bold, .green] "✓ CI passed in" ++ " " ++
    paint [.bold] (seconds ((← shop.now) - start)) ++ "\n")

def serve (shop : Workshop) : Chore → ChoreStep Unit
  | .pipeline verbose => shop.pipeline verbose
  | .format checkOnly => shop.run (formatArguments checkOnly)
  | .lint fix => shop.run (lintArguments fix)
  | .build release => shop.run ("build" :: if release then ["--release"] else [])
  | .test t => do
      match t.examplesOnly, t.area with
      | false, some area =>
          say (shop.arrow ++ " Running " ++ shop.terminal.paint [.bold] area.filter ++
            " tests...\n")
      | _, _ => pure ()
      shop.run (testArguments t)
  | .benchmark none => shop.run ["bench"]
  | .benchmark (some filter) => shop.run ["bench", "--", filter]
  | .render s => shop.render s

/-- Does the chore that arguments ask for, and gives its end with what was run and the files after
it. -/
def perform (shop : Workshop) (arguments : List String) (disk : Disk) : Outcome × Working :=
  match Chore.read arguments with
  | .error i =>
      (.stopped shop.terminal Chore.help "" (.interrupted i), ⟨"", [], disk⟩)
  | .ok chore =>
      match shop.serve chore ⟨"", [], disk⟩ with
      | .ok () w => (.done w.output, w)
      | .error stop w => (.stopped shop.terminal Chore.help w.output stop, w)

end Workshop

end TwinScreen.CommandLine
