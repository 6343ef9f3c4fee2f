/-!
# Files

A disk holds files and directories; each has a place, the list of the names that lead to it from
the root. A path names a place, from the root or from the working directory, and must lead through
directories that exist. A file may be locked, and a directory may be sealed: nothing is made in it.
-/
namespace TwinScreen

inductive FileError where
  | notFound
  | notADirectory
  | isADirectory
  | alreadyExists
  | permissionDenied
  /-- The content of a file is no text. -/
  | invalidData
  /-- A path holds a zero character. -/
  | invalidInput
  /-- A path, or a name in it, is too long. -/
  | invalidFilename
  deriving DecidableEq, Repr

namespace FileError

def number? : FileError → Option Nat
  | notFound => some 2
  | permissionDenied => some 13
  | alreadyExists => some 17
  | notADirectory => some 20
  | isADirectory => some 21
  | invalidFilename => some 36
  | invalidData | invalidInput => none

def text : FileError → String
  | notFound => "No such file or directory"
  | notADirectory => "Not a directory"
  | isADirectory => "Is a directory"
  | alreadyExists => "File exists"
  | permissionDenied => "Permission denied"
  | invalidData => "stream did not contain valid UTF-8"
  | invalidInput => "file name contained an unexpected NUL byte"
  | invalidFilename => "File name too long"

def reason (e : FileError) : String :=
  match e.number? with
  | some n => e.text ++ s!" (os error {n})"
  | none => e.text

def message (e : FileError) : String := "I/O error: " ++ e.reason

end FileError

/-- The names that lead to a file or directory from the root. -/
abbrev Place : Type := List String

/-- What stands at a place. -/
inductive Node where
  | file (bytes : Array UInt8)
  | directory
  /-- A directory in which nothing may be made. What stands in it may still be changed. -/
  | sealed
  /-- A file that may be neither read nor written. -/
  | locked
  deriving DecidableEq

def Node.isDirectory : Node → Bool
  | directory | sealed => true
  | file _ | locked => false

/-- The files and directories. -/
structure Disk where
  /-- What stands at each place but the root. -/
  nodes : List (Place × Node)
  workingDirectory : Place

namespace Disk

def node? (d : Disk) (place : Place) : Option Node :=
  if place = [] then some .directory else d.nodes.lookup place

def put (d : Disk) (place : Place) (node : Node) : Disk :=
  { d with nodes := (place, node) :: d.nodes.filter fun n => n.1 ≠ place }

def names (d : Disk) (directory : Place) : List String :=
  d.nodes.filterMap fun n =>
    match n.1.getLast? with
    | some name => if n.1.dropLast = directory then some name else none
    | none => none

end Disk

/-! ## Paths -/

def nameMax : Nat := 255

def pathMax : Nat := 4095

namespace Path

def names (path : String) : List String :=
  ((path.toList.splitOn '/').filter fun n => n ≠ []).map String.ofList

def isAbsolute (path : String) : Bool := path.toList.head? == some '/'

/-- What is wrong with a path as a text, before any of its names is looked at. -/
def flaw? (path : String) : Option FileError :=
  if path.toList.contains '\x00' then some .invalidInput
  else if pathMax < path.utf8ByteSize then some .invalidFilename
  else none

/-- The path can name only a directory. -/
def endsInSlash (path : String) : Bool := path.toList.getLast? == some '/'

/-- A path from where another path leads. -/
def join (base path : String) : String :=
  if isAbsolute path then path
  else if base = "" ∨ endsInSlash base then base ++ path
  else base ++ "/" ++ path

end Path

namespace Disk

/-- Follows names from a directory. The last one need not exist. -/
def follow (d : Disk) (directory : Place) : List String → Except FileError Place
  | [] => .ok directory
  | "." :: more => follow d directory more
  | ".." :: more => follow d directory.dropLast more
  | name :: more =>
      if nameMax < name.utf8ByteSize then .error .invalidFilename
      else if more = [] then .ok (directory ++ [name])
      else
        match d.node? (directory ++ [name]) with
        | none => .error .notFound
        | some node =>
            if node.isDirectory then follow d (directory ++ [name]) more
            else .error .notADirectory

/-- The places that names lead through from a directory. -/
def through (directory : Place) : List String → List Place
  | [] => []
  | "." :: more => through directory more
  | ".." :: more => through directory.dropLast more
  | name :: more => (directory ++ [name]) :: through (directory ++ [name]) more

def base (d : Disk) (absolute : Bool) : Place := if absolute then [] else d.workingDirectory

/-- The place that a path names. -/
def locate (d : Disk) (path : String) : Except FileError Place :=
  match Path.flaw? path with
  | some e => .error e
  | none =>
      if path = "" then .error .notFound
      else d.follow (d.base (Path.isAbsolute path)) (Path.names path)

def find (d : Disk) (path : String) : Except FileError Node :=
  match d.locate path with
  | .error e => .error e
  | .ok place =>
      match d.node? place with
      | none => .error .notFound
      | some node =>
          if Path.endsInSlash path ∧ ¬ node.isDirectory then .error .notADirectory else .ok node

def exists? (d : Disk) (path : String) : Bool := (d.find path).isOk

def isDirectory (d : Disk) (path : String) : Bool :=
  match d.find path with
  | .ok node => node.isDirectory
  | .error _ => false

def read (d : Disk) (path : String) : Except FileError (Array UInt8) :=
  match d.find path with
  | .error e => .error e
  | .ok (.file bytes) => .ok bytes
  | .ok .directory | .ok .sealed => .error .isADirectory
  | .ok .locked => .error .permissionDenied

def readText (d : Disk) (path : String) : Except FileError String :=
  match d.read path with
  | .error e => .error e
  | .ok bytes =>
      match String.fromUTF8? ⟨bytes⟩ with
      | some text => .ok text
      | none => .error .invalidData

end Disk

/-! ## Changes -/

/-- A change of the disk that may fail, also half-way. -/
abbrev DiskStep (α : Type) : Type := EStateM FileError Disk α

namespace DiskStep

/-- Makes a file or directory at a free place. -/
def make (place : Place) (node : Node) : DiskStep Unit := fun d =>
  if d.node? place.dropLast = some .sealed then .error .permissionDenied d
  else .ok () (d.put place node)

/-- Writes a file, which need not exist. -/
def write (path : String) (bytes : Array UInt8) : DiskStep Unit := fun d =>
  match d.locate path with
  | .error e => .error e d
  | .ok place =>
      if Path.endsInSlash path then .error .isADirectory d
      else
        match d.node? place with
        | none => make place (.file bytes) d
        | some (.file _) => .ok () (d.put place (.file bytes))
        | some .directory | some .sealed => .error .isADirectory d
        | some .locked => .error .permissionDenied d

def makeDirectory (path : String) : DiskStep Unit := fun d =>
  match d.locate path with
  | .error e => .error e d
  | .ok place =>
      match d.node? place with
      | none => make place .directory d
      | some _ => .error .alreadyExists d

def pathOf (absolute : Bool) (names : List String) : String :=
  (if absolute then "/" else "") ++ String.intercalate "/" names

/-- Makes a directory where something other than a directory must not stand. -/
def settle (path : String) : DiskStep Unit := fun d =>
  match makeDirectory path d with
  | .ok () d => .ok () d
  | .error e d => if d.isDirectory path then .ok () d else .error e d

/-- The names without those of the directory itself at the end. The names are in reverse order. -/
def withoutDots (names : List String) : List String := names.dropWhile fun n => n = "."

/-- The names that lead to the parent directory. The names are in reverse order. -/
def parent (names : List String) : List String := withoutDots ((withoutDots names).drop 1)

theorem length_parent_le (names : List String) : (parent names).length ≤ names.length - 1 := by
  have dropped := (List.dropWhile_sublist (l := names) fun n => n = ".").length_le
  have left :=
    (List.dropWhile_sublist (l := (withoutDots names).drop 1) fun n => n = ".").length_le
  simp only [parent, withoutDots, List.length_drop] at *
  omega

/-- Makes a directory and those that lead to it. The names are in reverse order. -/
def makeBranch (absolute : Bool) : List String → DiskStep Unit
  | [] => fun d => .ok () d
  | name :: leading => fun d =>
      let path := pathOf absolute (name :: leading).reverse
      match settle path d with
      | .ok () d => .ok () d
      | .error .notFound d =>
          match makeBranch absolute (parent (name :: leading)) d with
          | .ok () d => settle path d
          | .error e d => .error e d
      | .error e d => .error e d
termination_by names => names.length
decreasing_by
  have shorter := length_parent_le (name :: leading)
  simp only [List.length_cons] at *
  omega

/-- Makes a directory and those that lead to it, as far as they do not exist. -/
def makeDirectories (path : String) : DiskStep Unit := fun d =>
  match Path.flaw? path with
  | some e => .error e d
  | none => makeBranch (Path.isAbsolute path) (Path.names path).reverse d

end DiskStep

end TwinScreen
