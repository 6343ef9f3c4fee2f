import Std.Time.Zoned
import TwinScreen.CommandLine.Viewer

/-!
# The program

Looks at the files that the arguments name, runs the viewer on what is there, writes back what it
changed, and prints.
-/
namespace TwinScreen.Program

open CommandLine

def look (path : String) : IO (Option Node) := do
  try
    return some (.file (← IO.FS.readBinFile path).data)
  catch
    | .inappropriateType _ 21 _ => return some .directory
    | .permissionDenied .. => return some .locked
    | _ => return none

def pathOf (place : Place) : String := DiskStep.pathOf true place

def pathsIn (arguments : List String) : List String :=
  match ViewerRequest.read arguments with
  | .ok r => r.settingsPath.toList ++ r.target.toList
  | .error _ => []

/-- What stands at these paths and on the way to them. -/
def snapshot (paths : List String) : IO Disk := do
  let empty : Disk := ⟨[], Path.names (← IO.currentDir).toString⟩
  let places := ([] :: paths.map fun path =>
    Disk.through (empty.base (Path.isAbsolute path)) (Path.names path)).flatten
  (Disk.through [] empty.workingDirectory ++ places).foldlM
    (fun d place => do
      match ← look (pathOf place) with
      | some node => return d.put place node
      | none => return d)
    empty

/-- Writes what has changed, the oldest change first. -/
def writeBack (old new : Disk) : IO Unit :=
  new.nodes.reverse.forM fun (place, node) => do
    if old.node? place ≠ some node then
      match node with
      | .file bytes => IO.FS.writeBinFile (pathOf place) ⟨bytes⟩
      | .directory => IO.FS.createDir (pathOf place)
      | .sealed | .locked => return ()

def now : IO Timestamp := do
  let t ← Std.Time.PlainDateTime.now
  return ⟨t.year.toInt.toNat, t.month.val.toNat, t.day.val.toNat, t.hour.val.toNat,
    t.minute.val.toNat, t.second.val.toNat⟩

end TwinScreen.Program

open TwinScreen TwinScreen.CommandLine TwinScreen.Program in
def main (arguments : List String) : IO UInt32 := do
  let old ← snapshot (pathsIn arguments)
  let terminal : Terminal := ⟨← (← IO.getStderr).isTty⟩
  let (outcome, new) := Viewer.run terminal (← now) arguments old
  writeBack old new
  IO.print outcome.output
  IO.eprint outcome.errors
  return outcome.code.toUInt32
