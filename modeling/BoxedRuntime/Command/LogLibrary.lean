/-
  BoxedRuntime.Command.LogLibrary — the library that writes the log.

  Which records are shown, what is said about a specification that makes no sense, and
  how a line looks when the library forms it, are for the library to say. The program
  takes it from its environment; of a library it is known that a level without a
  specification shows the records up to that level, and nothing else.

  `Directives.library` is the one that the program is run with. A filter is a list of
  directives, each a level and, unless it is the fallback, the beginning of the targets it
  is about. The longest one that fits a target decides, of two equally long ones the
  later. A specification is a list of items between commas: a level, a target, or both as
  `target=level`; a target alone shows all of its records. A second directive for one
  target replaces the first. It has no patterns on the messages: a specification with a
  slash is ignored.
-/
import BoxedRuntime.Log
import BoxedRuntime.Text.Numeral

namespace BoxedRuntime

/-- A library that has been set up. -/
structure LogSetup where
  shows : LogRecord → Bool
  /-- The lines that it had to say about the specification. -/
  notices : List String := []

structure LogLibrary where
  /-- Set up at a level, to which a specification adds. -/
  atLevel : Level → Option String → LogSetup
  /-- Set up by the specification alone; `none` is one that is there but cannot be read. -/
  alone : Option String → LogSetup
  /-- The library's own line for a record that is shown after `n` others. -/
  line : (n : Nat) → LogRecord → String
  /-- Without a specification the level decides. -/
  shows_atLevel : ∀ level r, (atLevel level none).shows r = decide (r.level.verbosity ≤ level.verbosity)
  /-- Without a specification there is nothing to say about it. -/
  notices_atLevel : ∀ level, (atLevel level none).notices = []

/-- The greatest verbosity shown; zero shows nothing. -/
abbrev Threshold := Nat

structure Directive where
  target : Option String
  threshold : Threshold
  deriving DecidableEq, Repr

namespace Directive

def length (d : Directive) : Nat := (d.target.map String.utf8ByteSize).getD 0

def fits (d : Directive) (target : String) : Bool :=
  match d.target with
  | none => true
  | some start => start.toList.isPrefixOf target.toList

end Directive

abbrev Directives := List Directive

namespace Directives

def set (ds : Directives) (d : Directive) : Directives :=
  if ds.any (·.target == d.target) then ds.map fun e => if e.target = d.target then d else e else ds ++ [d]

def ofLevel (level : Level) : Directives := [⟨none, level.verbosity⟩]

def threshold (ds : Directives) (target : String) : Threshold :=
  match (ds.mergeSort fun a b => a.length ≤ b.length).reverse.find? (·.fits target) with
  | some d => d.threshold
  | none => 0

def shows (ds : Directives) (r : LogRecord) : Bool := r.level.verbosity ≤ ds.threshold r.target

theorem threshold_ofLevel (level : Level) (target : String) : threshold (ofLevel level) target = level.verbosity := by
  rw [threshold, ofLevel, List.mergeSort_singleton]
  rfl

/-! ## Specifications -/

/-- The characters that do not count at the ends of an item. -/
def isBlank (c : Char) : Bool :=
  let n := c.toNat
  (9 ≤ n && n ≤ 13) || n = 0x20 || n = 0x85 || n = 0xA0 || n = 0x1680 || (0x2000 ≤ n && n ≤ 0x200A) ||
    n = 0x2028 || n = 0x2029 || n = 0x202F || n = 0x205F || n = 0x3000

def trim (cs : List Char) : List Char := ((cs.dropWhile isBlank).reverse.dropWhile isBlank).reverse

/-- The pieces between the separators. -/
def split (separator : Char) : List Char → List (List Char)
  | [] => [[]]
  | c :: cs =>
    match split separator cs with
    | [] => [[c]]
    | piece :: r => if c = separator then [] :: piece :: r else (c :: piece) :: r

def levelNames : List (String × Threshold) :=
  [("OFF", 0), ("ERROR", 1), ("WARN", 2), ("INFO", 3), ("DEBUG", 4), ("TRACE", 5)]

/-- A level by its name, in any case. -/
def threshold? (cs : List Char) : Option Threshold :=
  levelNames.lookup (String.ofList (cs.map Char.toUpper))

/-- The directive of an item, or the part of it that makes no sense. -/
def directive? (item : List Char) : Except String Directive :=
  match split '=' item with
  | [part] =>
    match threshold? part with
    | some n => .ok ⟨none, n⟩
    | none => .ok ⟨some (String.ofList part), Level.trace.verbosity⟩
  | [target, level] =>
    if trim level = [] then .ok ⟨some (String.ofList target), Level.trace.verbosity⟩
    else match threshold? (trim level) with
      | some n => .ok ⟨some (String.ofList target), n⟩
      | none => .error (String.ofList (trim level))
  | _ => .error (String.ofList item)

def ignored (part : String) : String := s!"warning: invalid logging spec '{part}', ignoring it"

/-- What a specification adds to a filter; the notices say what was ignored of it. -/
def parse (ds : Directives) (spec : String) : Directives × List String :=
  if '/' ∈ spec.toList then (ds, [ignored spec])
  else
    (((split ',' spec.toList).map trim).filter (· ≠ [])).foldl (fun (ds, notices) item =>
      match directive? item with
      | .ok d => (ds.set d, notices)
      | .error part => (ds, notices ++ [ignored part])) (ds, [])

/-! ## The library -/

def setup (ds : Directives) (spec : Option String) : LogSetup :=
  let (ds, notices) := spec.elim (ds, []) ds.parse
  ⟨ds.shows, notices⟩

/-- With no directive at all, errors are shown. -/
def setupAlone (spec : String) : LogSetup :=
  match parse [] spec with
  | ([], notices) => ⟨(ofLevel .error).shows, notices⟩
  | (ds, notices) => ⟨ds.shows, notices⟩

def timedLine (time : String) (r : LogRecord) : String :=
  let level := String.ofList (Numeral.padRight 5 ' ' r.level.name.toList)
  s!"[{time} {level} {r.target}] {r.message}\n"

/-- All lines of a run carry one time. -/
def library (time : String) : LogLibrary where
  atLevel level spec := setup (ofLevel level) spec
  alone spec := spec.elim (setup (ofLevel .warn) none) setupAlone
  line _ r := timedLine time r
  shows_atLevel level r := by
    show decide (r.level.verbosity ≤ threshold (ofLevel level) r.target) = _
    rw [threshold_ofLevel]
  notices_atLevel _ := rfl

end Directives
end BoxedRuntime
