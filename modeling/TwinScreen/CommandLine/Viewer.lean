import TwinScreen.CommandLine.Number
import TwinScreen.CommandLine.Outcome
import TwinScreen.ErrorScreens
import TwinScreen.Screenshot
import TwinScreen.Settings.Storage
import TwinScreen.Window

/-!
# The viewer

The viewer shows the error screens of a diagnostic: it saves them as an image, or opens a window.
Settings come from a file, from the command line, or are the standard ones. No window can be opened
without a display, and there is none.
-/
namespace TwinScreen.CommandLine

structure ViewerRequest where
  summary : String
  remediation : String
  settingsPath : Option String
  arrangement : Option Arrangement
  gap : Option UInt64
  window : Window
  /-- The file or directory for the image. -/
  target : Option String

namespace ViewerRequest

/-- A diagnostic to look at, in a window with standard settings. -/
def standard : ViewerRequest where
  summary := "BIOS not found"
  remediation := "Place the DS BIOS and firmware files (bios7.bin, bios9.bin and firmware.bin) " ++
    "in your system directory, or enable the built-in replacements in the emulator settings. " ++
    "Then restart the game."
  settingsPath := none
  arrangement := none
  gap := none
  window := .standard
  target := none

def arrangementOf (value : String) : Except Refusal Arrangement :=
  (Arrangement.parse value).mapError fun e => .because e.message

def gapOf (value : String) : Except Refusal UInt64 :=
  ((readNatural (Size.bound - 1) value.toList).map UInt64.ofNat).mapError fun e =>
    .because e.message

def scaleOf (value : String) : Except Refusal Nat :=
  match readInteger 0x8000000000000000 value.toList with
  | .error e => .error (.because e.message)
  | .ok n =>
      if 0 ≤ n ∧ n < Extent.bound then .ok n.toNat
      else .error (.because s!"{n} is not in 0..={Extent.bound - 1}")

def pathOf (value : String) : Except Refusal String :=
  if value = "" then .error .empty else .ok value

def usage : Usage ViewerRequest where
  flags := []
  options := [
    ⟨"summary", fun v r => .ok { r with summary := v }⟩,
    ⟨"remediation", fun v r => .ok { r with remediation := v }⟩,
    ⟨"config", fun v r => do return { r with settingsPath := some (← pathOf v) }⟩,
    ⟨"layout", fun v r => do return { r with arrangement := some (← arrangementOf v) }⟩,
    ⟨"gap", fun v r => do return { r with gap := some (← gapOf v) }⟩,
    ⟨"scale", fun v r => do return { r with window := r.window.withScale (← scaleOf v) }⟩,
    ⟨"screenshot", fun v r => do return { r with target := some (← pathOf v) }⟩]
  operand := none

def read (arguments : List String) : Except Interruption ViewerRequest :=
  usage.read standard arguments

def diagnostic (r : ViewerRequest) : Diagnostic := ⟨r.summary, r.remediation⟩

def adjust (r : ViewerRequest) (s : Settings) : Settings :=
  { s with placement :=
    { arrangement := r.arrangement.getD s.placement.arrangement
      gap := r.gap.getD s.placement.gap } }

end ViewerRequest

/-- What the viewer has printed, and the files. -/
structure Viewing where
  output : String
  disk : Disk

abbrev ViewerStep (α : Type) : Type := EStateM Stop Viewing α

namespace Viewer

/-- The first lines of the output. -/
def heading : String := "duoscreen v0.1.0\n==================\n\n"

def help : String :=
  "Dual-screen error screen renderer\n\nUsage: duoscreen [OPTIONS]\n\nOptions:\n" ++
    String.join (ViewerRequest.usage.options.map fun o => "      " ++ o.written ++ "\n") ++
    "  -h, --help\n"

def say (text : String) : ViewerStep Unit := modify fun v => { v with output := v.output ++ text }

def ofExcept {α : Type} : Except Fault α → ViewerStep α
  | .ok a => pure a
  | .error f => throw (.faulted f)

def settings (r : ViewerRequest) : ViewerStep Settings := do
  match r.settingsPath with
  | none => return r.adjust .standard
  | some path =>
      let (s, _, disk) := Settings.loadOrStandard path (← get).disk
      modify fun v => { v with disk }
      say s!"Configuration loaded from '{path}'\n"
      return r.adjust s

def capture (screens : ErrorScreens) (s : Settings) : ViewerStep Pixmap := do
  let (_, _, recorder) ← ofExcept
    (screens.presentToRecorder.result (s.placement.compositor, .empty))
  match recorder.latest with
  | some frame => return frame
  | none => throw (.failed "No frame was presented")

/-- The text of an error with what caused it. -/
def becauseOf (what : String) (e : Screenshot.SaveError) : Stop :=
  .failed (what ++ "\n\nCaused by:\n    " ++ e.message)

/-- Saves the image to a file, or in a directory under a name of its own, and says where. -/
def save (now : Timestamp) (path : String) (frame : Pixmap) : ViewerStep String := fun v =>
  if v.disk.isDirectory path then
    match Screenshot.saveIn now path frame v.disk with
    | .ok (path, _) disk => .ok path { v with disk }
    | .error e disk =>
        .error (becauseOf ("Failed to save screenshot in " ++ path) e) { v with disk }
  else
    match Screenshot.save path frame v.disk with
    | .ok () disk => .ok path { v with disk }
    | .error e disk => .error (becauseOf ("Failed to write " ++ path) e) { v with disk }

def serve (now : Timestamp) (r : ViewerRequest) : ViewerStep Unit := do
  say heading
  let s ← settings r
  let (screens, _) ← ofExcept (ErrorScreens.draw r.diagnostic s)
  match r.target with
  | some target =>
      let frame ← capture screens s
      let path ← save now target frame
      say s!"Saved {frame.width}x{frame.height} error screen to '{path}'\n"
  | none =>
      say "Press Escape or close the window to exit.\n\n"
      throw (.failed "Display error: there is no display")

def run (t : Terminal) (now : Timestamp) (arguments : List String) (disk : Disk) :
    Outcome × Disk :=
  match ViewerRequest.read arguments with
  | .error i => (.stopped t help "" (.interrupted i), disk)
  | .ok r =>
      match serve now r ⟨"", disk⟩ with
      | .ok () v => (.done v.output, v.disk)
      | .error stop v => (.stopped t help v.output stop, v.disk)

end Viewer

end TwinScreen.CommandLine
