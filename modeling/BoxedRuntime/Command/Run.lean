/-
  BoxedRuntime.Command.Run — what an invocation writes and how it ends.

  Every command boots a runtime without extensions and then reads it. What the command
  has to say goes to the standard output, log records and complaints to the standard
  error, the records first. A fault ends the program with the status of its kind.

  The parser of the command line and the library that writes the log are parts of the
  environment.
-/
import BoxedRuntime.Boot
import BoxedRuntime.Command.Arguments
import BoxedRuntime.Command.LogLibrary
import BoxedRuntime.Literal

namespace BoxedRuntime

/-- What a run leaves behind. -/
structure Outcome where
  status : UInt32
  stdout : String := ""
  stderr : String := ""
  deriving DecidableEq, Repr

/-- The value of a variable of the process. -/
inductive Variable where
  | unset
  | text (s : String)
  /-- It is set, to bytes that are no text. -/
  | unreadable
  deriving DecidableEq, Repr

def Variable.text? : Variable → Option String
  | text s => some s
  | _ => none

instance : Coe (Option String) Variable := ⟨fun s => s.elim .unset .text⟩

/-- What a run depends on beside its arguments. -/
structure Environment where
  /-- The log specification. -/
  logSpec : Variable := .unset
  /-- The time at which the records are written. -/
  time : String := ""
  /-- The parser of the command line; `none` is a usage error. -/
  parser : List String → Option Invocation := Arguments.read
  logs : LogLibrary := Directives.library time

namespace Command

/-- A command succeeds or fails with a message; either way it may have something to say. -/
structure Answer where
  stdout : String := ""
  error : Option String := none
  deriving DecidableEq, Repr

def paddedText (width : Nat) (s : String) : String := String.ofList (Numeral.padRight width ' ' s.toList)

def routineLine (k : RoutineKey) : String := paddedText 16 k.name ++ " " ++ k.signature.text ++ "\n"

def listRoutines (r : Runtime) (name : Option String) : Answer :=
  { stdout := String.join ((r.registry.keys.filter fun k => name.all (· == k.name)).map routineLine) }

def reportQueries (r : Runtime) : Answer :=
  { stdout := String.join (r.report.failures.map fun (name, complaint) => s!"FAIL {name}: {complaint}\n") ++
      s!"{r.report.queried} module(s) queried, {r.report.failures.length} failure(s)\n"
    error := if r.report.isOk then none else some "module query pass failed" }

def callRoutine (r : Runtime) (name : String) (signature : Signature) (literal : String) : Op Answer := do
  match ← Literal.read literal with
  | .error e => return { error := some e.message }
  | .ok x =>
    match ← r.call name signature [x] with
    | .error e => return { error := some e.message }
    | .ok y => return { stdout := y.tag.name ++ " " ++ y.display ++ "\n" }

def tagLine (t : Tag) : String :=
  "  " ++ String.ofList (Numeral.padLeft 2 ' ' (Numeral.decimal t.raw.toNat)) ++ " " ++ t.name ++ "\n"

def showInfo (r : Runtime) : Answer :=
  { stdout := s!"brisk runtime {version}\n\nModules (registration order):\n" ++
      String.join (r.modules.map fun name => s!"  {name}\n") ++ "\nType tags:\n" ++
      String.join (Tag.all.map tagLine) ++ s!"\n{r.registry.size} routine(s) registered\n" }

def answer (c : Command) : Op Answer := do
  let r ← Runtime.boot [] []
  match c with
  | .routines name => return listRoutines r name
  | .check => return reportQueries r
  | .call name signature literal => callRoutine r name signature literal
  | .info => return showInfo r

/-! ## Logging -/

/-- How a run shows its log. -/
structure Logging extends LogSetup where
  line : (n : Nat) → LogRecord → String

/-- The program's own line. -/
def plainLine (r : LogRecord) : String := s!"[{paddedText 5 r.level.name}] {r.target} - {r.message}\n"

/-- Set up at a level; a specification, if there is one, adds to it. -/
def loggingAt (level : Level) (env : Environment) : Logging :=
  { env.logs.atLevel level env.logSpec.text? with line := fun _ => plainLine }

/-- With `--verbose` a specification adds to the level of that flag. Without the flag it
    stands alone, and the library forms the lines. With neither, warnings and errors are
    shown. -/
def logging (verbose : Bool) (env : Environment) : Logging :=
  if verbose then loggingAt .debug env
  else match env.logSpec with
    | .unset => loggingAt .warn env
    | spec => { env.logs.alone spec.text? with line := env.logs.line }

/-- The notices first, then the records that are shown. -/
def Logging.text (l : Logging) (log : List LogRecord) : String :=
  String.join (l.notices.map (· ++ "\n")) ++ String.join ((log.filter l.shows).mapIdx l.line)

/-! ## Running -/

def finish (result : Except Fault Answer) (logText : String) : Outcome :=
  match result with
  | .error f => ⟨f.kind.exitStatus, "", logText ++ f.diagnostic⟩
  | .ok ⟨stdout, none⟩ => ⟨0, stdout, logText⟩
  | .ok ⟨stdout, some message⟩ => ⟨1, stdout, logText ++ "Error: " ++ message ++ "\n"⟩

def run (c : Command) (verbose : Bool) (env : Environment) : Outcome :=
  let (result, session) := c.answer {}
  finish result ((logging verbose env).text session.log.toList)

end Command

/-- Run a command line; `none` is a usage error, of status 2. -/
def runArguments (arguments : List String) (env : Environment) : Option Outcome :=
  (env.parser arguments).map fun
    | .answered text => { status := 0, stdout := text }
    | .run verbose command => command.run verbose env

end BoxedRuntime
