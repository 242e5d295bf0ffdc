/-
  BoxedRuntime.Command.Arguments — the command line.

  A parser turns the arguments into an `Invocation`, or finds them in error. The program
  takes its parser from its environment; `Arguments.read` is the one it is run with.

  It reads a subcommand with its operands; `-v` and `--verbose` may stand before or after
  its name, each place taking it once. Short flags may be joined. `--` ends the options of
  a place, so that an operand may begin with a dash; `-` alone is an operand. `-h` and
  `--help` in both places, `-V` and `--version` at the top answer at once.
-/
import BoxedRuntime.Signature

namespace BoxedRuntime

inductive Command where
  /-- List the registered routines, or those of one name. -/
  | routines (name : Option String)
  /-- Report what the query pass found. -/
  | check
  /-- Call a routine on one literal. -/
  | call (name : String) (signature : Signature) (literal : String)
  /-- Show the module order and the type tags. -/
  | info
  deriving DecidableEq, Repr

/-- What a command line that is accepted asks for. -/
inductive Invocation where
  /-- The parser has the answer itself, as for help and for the version. -/
  | answered (text : String)
  | run (verbose : Bool) (command : Command)
  deriving DecidableEq, Repr

namespace Command

def version : String := "0.1.0"

def usage : String :=
  "usage: brisk [-v] routines [--name NAME]\n" ++
  "       brisk [-v] check\n" ++
  "       brisk [-v] call NAME SIGNATURE LITERAL\n" ++
  "       brisk [-v] info\n" ++
  "       brisk --help | --version\n"

end Command

namespace Arguments

/-- What one argument is, before any `--`. -/
inductive Token where
  | endOfOptions
  | long (name : String) (value : Option String)
  | short (flags : List Char)
  | operand (text : String)
  deriving DecidableEq, Repr

def Token.ofList : List Char → Token
  | ['-', '-'] => .endOfOptions
  | '-' :: '-' :: cs =>
    .long (String.ofList (cs.takeWhile (· ≠ '=')))
      (match cs.dropWhile (· ≠ '=') with
        | [] => none
        | _ :: value => some (String.ofList value))
  | '-' :: c :: cs => .short (c :: cs)
  | cs => .operand (String.ofList cs)

def token (argument : String) : Token := Token.ofList argument.toList

/-- The options and operands after the name of a subcommand. -/
structure Rest where
  verbose : Bool := false
  name : Option String := none
  operands : List String := []
  deriving DecidableEq, Repr

/-- Why the arguments are not read to their end. -/
inductive Halt where
  /-- An unknown or repeated option, or one without the value it needs; operands too many
      or too few. -/
  | misuse
  | answer (text : String)

abbrev Reading := Except Halt

/-- Joined flags, after `-v` was or was not given in the same place. -/
def readFlags (atTop verbose : Bool) : List Char → Reading Bool
  | [] => .ok verbose
  | 'v' :: cs => if verbose then .error .misuse else readFlags atTop true cs
  | 'h' :: _ => .error (.answer Command.usage)
  | 'V' :: _ => .error (if atTop then .answer s!"brisk {Command.version}\n" else .misuse)
  | _ :: _ => .error .misuse

/-- Read what follows the name of a subcommand; `named` says whether it has the option
    `--name`. -/
def readRest (named : Bool) : List String → Rest → Reading Rest
  | [], r => .ok r
  | a :: as, r =>
    match token a with
    | .endOfOptions => .ok { r with operands := r.operands ++ as }
    | .operand text => readRest named as { r with operands := r.operands ++ [text] }
    | .short flags => do readRest named as { r with verbose := ← readFlags false r.verbose flags }
    | .long "verbose" none => if r.verbose then .error .misuse else readRest named as { r with verbose := true }
    | .long "help" none => .error (.answer Command.usage)
    | .long "name" (some value) =>
      if named && r.name.isNone then readRest named as { r with name := some value } else .error .misuse
    | .long "name" none =>
      if named && r.name.isNone then
        match as with
        | value :: as' =>
          match token value with
          | .operand text => readRest named as' { r with name := some text }
          | _ => .error .misuse
        | [] => .error .misuse
      else .error .misuse
    | .long _ _ => .error .misuse

/-- A subcommand and what follows its name. -/
def readCommand (name : String) (as : List String) : Reading (Bool × Command) := do
  let r ← readRest (name = "routines") as {}
  match name, r.operands with
  | "routines", [] => return (r.verbose, .routines r.name)
  | "check", [] => return (r.verbose, .check)
  | "info", [] => return (r.verbose, .info)
  | "call", [routine, signature, literal] => return (r.verbose, .call routine ⟨signature⟩ literal)
  | _, _ => .error .misuse

def subcommands : List String := ["routines", "check", "call", "info", "help"]

def readTop (verbose : Bool) : List String → Reading (Bool × Command)
  | [] => .error .misuse
  | a :: as =>
    match token a with
    | .endOfOptions => .error .misuse
    | .long "version" none => .error (.answer s!"brisk {Command.version}\n")
    | .long "help" none => .error (.answer Command.usage)
    | .long "verbose" none => if verbose then .error .misuse else readTop true as
    | .long _ _ => .error .misuse
    | .short flags => do readTop (← readFlags true verbose flags) as
    | .operand "help" => .error (if as.length ≤ 1 ∧ as ⊆ subcommands then .answer Command.usage else .misuse)
    | .operand name => do
      if name ∉ subcommands then .error .misuse
      let (v, c) ← readCommand name as
      return (verbose || v, c)

/-- The invocation that a list of arguments asks for; `none` is a usage error. -/
def read (arguments : List String) : Option Invocation :=
  match readTop false arguments with
  | .ok (verbose, c) => some (.run verbose c)
  | .error (.answer text) => some (.answered text)
  | .error .misuse => none

end Arguments
end BoxedRuntime
