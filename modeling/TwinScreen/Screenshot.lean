import TwinScreen.Files.Disk
import TwinScreen.Notice
import TwinScreen.Png.Encode

/-!
# Screenshots

A frame is saved as an image file, under a given name or in a directory under a name with the date
and the time. The file is made before the image is written, so an image that cannot be written
leaves a file behind.
-/
namespace TwinScreen

structure Timestamp where
  year : Nat
  month : Nat
  day : Nat
  hour : Nat
  minute : Nat
  second : Nat
  deriving DecidableEq, Repr

namespace Timestamp

def padded (width n : Nat) : String :=
  let digits := Nat.toDigits 10 n
  String.ofList (List.replicate (width - digits.length) '0' ++ digits)

/-- The digits of the date, an underscore and the digits of the time. -/
def print (t : Timestamp) : String :=
  String.join [padded 4 t.year, padded 2 t.month, padded 2 t.day, "_", padded 2 t.hour,
    padded 2 t.minute, padded 2 t.second]

end Timestamp

namespace Screenshot

inductive SaveError where
  | file (error : FileError)
  | encoding (error : Png.EncodeError)
  deriving DecidableEq, Repr

namespace SaveError

def message : SaveError → String
  | file e => e.message
  | encoding .empty => "PNG encoding error: no pixels"
  | encoding .wrongSize => "PNG encoding error: wrong data size"

end SaveError

def save (path : String) (frame : Pixmap) : EStateM SaveError Disk Unit := fun d =>
  match Png.encode frame with
  | .ok bytes =>
      match DiskStep.write path bytes d with
      | .ok () d => .ok () d
      | .error e d => .error (.file e) d
  | .error flaw =>
      match DiskStep.write path Png.abandoned d with
      | .ok () d => .error (.encoding flaw) d
      | .error e d => .error (.file e) d

def fileName (now : Timestamp) : String := String.join ["error_screen_", now.print, ".png"]

/-- Saves an image in a directory, which is made if necessary, and says where. -/
def saveIn (now : Timestamp) (directory : String) (frame : Pixmap) :
    EStateM SaveError Disk (String × List Notice) := fun d =>
  match DiskStep.makeDirectories directory d with
  | .error e d => .error (.file e) d
  | .ok () d =>
      let path := Path.join directory (fileName now)
      match save path frame d with
      | .error e d => .error e d
      | .ok () d => .ok (path, [.screenshot path]) d

end Screenshot

end TwinScreen
