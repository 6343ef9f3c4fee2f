import TwinScreen.Terminal.Sequence

/-!
# Reading arguments

A command takes flags, options with a value and at most one operand, in any order. An option's
value follows it as the next argument or after an equals sign; after `--` every argument is an
operand. Arguments are read from left to right, and a value is checked only when something behind
it has been recognized, so the first error in this order is the one reported.
-/
namespace TwinScreen.CommandLine

/-- Why arguments are not accepted. -/
inductive Misuse where
  /-- An argument that the command does not take. -/
  | unexpected (argument : String)
  /-- A value for a flag. -/
  | surplusValue (value flag : String)
  | unknownCommand (word : String)
  | missingValue (option : String)
  | repeated (switch : String)
  /-- A value that an option refuses, perhaps with a reason. -/
  | refused (value option : String) (reason : Option String)
  deriving DecidableEq, Repr

namespace Misuse

def errorStyle : List Style := [.bold, .red]

def wrongStyle : List Style := [.yellow]

def literalStyle : List Style := [.bold]

def pieces : Misuse → List (List Style × String)
  | unexpected a => [([], "unexpected argument '"), (wrongStyle, a), ([], "' found")]
  | surplusValue v f =>
      [([], "unexpected value '"), (wrongStyle, v), ([], "' for '"), (literalStyle, f),
        ([], "' found; no more were expected")]
  | unknownCommand w => [([], "unrecognized subcommand '"), (wrongStyle, w), ([], "'")]
  | missingValue o =>
      [([], "a value is required for '"), (wrongStyle, o), ([], "' but none was supplied")]
  | repeated s =>
      [([], "the argument '"), (wrongStyle, s), ([], "' cannot be used multiple times")]
  | refused v o reason =>
      [([], "invalid value '"), (wrongStyle, v), ([], "' for '"), (literalStyle, o),
        ([], "'" ++ (reason.map (": " ++ ·)).getD "")]

def message (t : Terminal) (m : Misuse) : String :=
  t.send (Terminal.mark errorStyle "error:" ++ " " ++
    String.join (m.pieces.map fun (styles, text) => Terminal.mark styles text))

end Misuse

inductive Interruption where
  | helpWanted
  /-- A command is needed and none is given. -/
  | commandWanted
  | misuse (m : Misuse)
  deriving DecidableEq, Repr

inductive Refusal where
  | empty
  | unlisted
  | because (reason : String)
  deriving DecidableEq, Repr

/-- A switch without a value. -/
structure Flag (σ : Type) where
  name : String
  set : σ → σ

namespace Flag

variable {σ : Type}

def written (f : Flag σ) : String := "--" ++ f.name

end Flag

/-- A switch with a value. -/
structure Parameter (σ : Type) where
  name : String
  set : String → σ → Except Refusal σ

namespace Parameter

variable {σ : Type}

/-- The option as it is written, with a word for its value. -/
def written (o : Parameter σ) : String := "--" ++ o.name ++ " <" ++ o.name.toUpper ++ ">"

end Parameter

structure Usage (σ : Type) where
  flags : List (Flag σ)
  options : List (Parameter σ)
  operand : Option (String → σ → σ)

structure Progress (σ : Type) where
  settings : σ
  /-- The names of the switches that have taken effect. -/
  used : List String
  /-- The last option, whose value has not been checked, with its value if it has one. -/
  waiting : Option (Parameter σ × Option String)
  /-- The operand has been read. -/
  filled : Bool

namespace Progress

variable {σ : Type}

def start (settings : σ) : Progress σ := ⟨settings, [], none, false⟩

def raise (p : Progress σ) (f : Flag σ) : Except Misuse (Progress σ) :=
  if f.name ∈ p.used then .error (.repeated f.written)
  else .ok { p with settings := f.set p.settings, used := f.name :: p.used }

def accept (p : Progress σ) (o : Parameter σ) (value : String) : Except Misuse (Progress σ) :=
  if o.name ∈ p.used then .error (.repeated o.written)
  else
    match o.set value p.settings with
    | .ok settings => .ok { p with settings, used := o.name :: p.used }
    | .error .empty => .error (.missingValue o.written)
    | .error .unlisted => .error (.refused value o.written none)
    | .error (.because reason) => .error (.refused value o.written (some reason))

/-- Lets the waiting option take effect. -/
def settle (p : Progress σ) : Except Misuse (Progress σ) :=
  match p.waiting with
  | none => .ok p
  | some (o, none) => .error (.missingValue o.written)
  | some (o, some value) => { p with waiting := none }.accept o value

end Progress

namespace Usage

variable {σ : Type}

def help {α : Type} (p : Progress σ) : Except Interruption α :=
  match p.settle with
  | .ok _ => .error .helpWanted
  | .error m => .error (.misuse m)

/-- Reads a switch that starts with two hyphens, with the value behind its equals sign. -/
def readLong (u : Usage σ) (p : Progress σ) (name : String) (value? : Option String) :
    Except Interruption (Progress σ) :=
  match u.options.find? (·.name = name), u.flags.find? (·.name = name), value? with
  | some o, _, some value => (p.settle >>= (·.accept o value)).mapError .misuse
  | some o, _, none =>
      (p.settle.map fun p => { p with waiting := some (o, none) }).mapError .misuse
  | none, some f, some value => .error (.misuse (.surplusValue value f.written))
  | none, some f, none => (p.settle >>= (·.raise f)).mapError .misuse
  | none, none, value? =>
      if name = "help" then
        match value? with
        | some value => .error (.misuse (.surplusValue value "--help"))
        | none => help p
      else .error (.misuse (.unexpected ("--" ++ name)))

def readOperand (u : Usage σ) (p : Progress σ) (argument : String) :
    Except Interruption (Progress σ) :=
  match u.operand, p.filled with
  | some set, false =>
      (p.settle.map fun p =>
        { p with settings := set argument p.settings, filled := true }).mapError .misuse
  | _, _ => .error (.misuse (.unexpected argument))

/-- Reads an argument that is not `--`. -/
def readArgument (u : Usage σ) (p : Progress σ) (argument : String) :
    Except Interruption (Progress σ) :=
  match argument.toList with
  | '-' :: '-' :: rest =>
      let name := String.ofList (rest.takeWhile (· ≠ '='))
      match rest.dropWhile (· ≠ '=') with
      | _ :: value => u.readLong p name (some (String.ofList value))
      | [] => u.readLong p name none
  | '-' :: c :: _ =>
      if c = 'h' then help p else .error (.misuse (.unexpected (String.ofList ['-', c])))
  | _ =>
      match p.waiting with
      | some (o, none) => .ok { p with waiting := some (o, some argument) }
      | _ => u.readOperand p argument

def readAll (u : Usage σ) (p : Progress σ) : List String → Except Interruption (Progress σ)
  | [] => .ok p
  | "--" :: operands => operands.foldlM u.readOperand p
  | argument :: more => do readAll u (← u.readArgument p argument) more

def read (u : Usage σ) (settings : σ) (arguments : List String) : Except Interruption σ := do
  let p ← u.readAll (.start settings) arguments
  return (← p.settle.mapError .misuse).settings

end Usage

end TwinScreen.CommandLine
