import TwinScreen.Files.Disk
import TwinScreen.Notice
import TwinScreen.Settings.Printing
import TwinScreen.Settings.Reading

/-!
# Settings files

Settings are kept in a text file. Where there is none, standard settings are used and a file with
them is made; a file that cannot be used is left as it is.
-/
namespace TwinScreen.Settings

inductive LoadError where
  | file (error : FileError)
  | unreadable (error : Unreadable)
  deriving DecidableEq, Repr

namespace LoadError

def message : LoadError → String
  | file e => e.message
  | unreadable e => e.message

end LoadError

def load (d : Disk) (path : String) : Except LoadError Settings :=
  match d.readText path with
  | .error e => .error (.file e)
  | .ok text =>
      match read text.toList with
      | .error e => .error (.unreadable e)
      | .ok s => .ok s

def save (s : Settings) (path : String) : DiskStep Unit :=
  DiskStep.write path s.print.toUTF8.data

/-- Makes a file with standard settings and reports how that went. -/
def createStandard (path : String) (d : Disk) : List Notice × Disk :=
  match save standard path d with
  | .ok () d => ([.settingsCreated path], d)
  | .error e d => ([.settingsUnsaved e.message], d)

/-- The settings in a file, or standard settings, with the disk after that. -/
def loadOrStandard (path : String) (d : Disk) : Settings × List Notice × Disk :=
  match load d path with
  | .ok s => (s, [], d)
  | .error (.file .notFound) => (standard, createStandard path d)
  | .error e => (standard, [.settingsUnreadable path e.message], d)

end TwinScreen.Settings
