/-
  BoxedRuntime.Chain — the chain of module initializers.

  A module starts up by two callbacks: `register` fills a shared context, `query` looks
  at it once every module has registered. Linking puts an initializer at the head of the
  chain, so the walk meets the most recently linked module first. A run is one walk of
  register callbacks and then one of queries; the walk is over when a callback faults.
-/
import BoxedRuntime.Session
import BoxedRuntime.Text.Quoted

namespace BoxedRuntime

/-- A query's complaint, if it has one. -/
abbrev Verdict := Except String Unit

structure Initializer (C : Type) where
  name : String
  register : Startup C Unit
  query : C → Op Verdict := fun _ => pure (.ok ())

def Initializer.debug {C : Type} (i : Initializer C) : String :=
  "Initializer \x7b name: " ++ Quoted.text i.name ++ " \x7d"

/-- What a query pass found: the number of modules asked, and the complaints. -/
structure Report where
  queried : Nat := 0
  failures : List (String × String) := []
  deriving DecidableEq, Repr

def Report.isOk (r : Report) : Bool := r.failures.isEmpty

/-- The initializers in walk order, the one at the head first, and beside them the number
    of links made. -/
structure Chain (C : Type) where
  walk : List (Initializer C) := []
  linked : Nat := 0

namespace Chain

variable {C : Type}

def logTarget : String := "brisk_plugin::chain"

def empty : Chain C := {}

def names (c : Chain C) : List String := c.walk.map (·.name)

def length (c : Chain C) : Nat := c.linked

def isEmpty (c : Chain C) : Bool := c.linked == 0

def contains (c : Chain C) (name : String) : Bool := c.walk.any fun i => i.name == name

def repeatedRecord (name : String) : LogRecord :=
  ⟨.warn, logTarget, s!"initializer '{name}' is linked more than once"⟩

def linkingRecord (name : String) : LogRecord := ⟨.trace, logTarget, s!"linking initializer '{name}'"⟩

/-- Names are labels: a second module of one name is linked like any other. -/
def link (c : Chain C) (i : Initializer C) : Op (Chain C) := do
  if c.contains i.name then Op.emit (repeatedRecord i.name)
  Op.emit (linkingRecord i.name)
  return ⟨i :: c.walk, c.linked + 1⟩

def linkAll (c : Chain C) (is : List (Initializer C)) : Op (Chain C) := is.foldlM link c

/-! ## Running -/

def registeringRecord (name : String) : LogRecord := ⟨.debug, logTarget, s!"registering module '{name}'"⟩

def failedRecord (name complaint : String) : LogRecord :=
  ⟨.warn, logTarget, s!"query for module '{name}' failed: {complaint}"⟩

/-- Take the initializers off the chain one by one; `ran` are those that have registered. -/
def registerFrom (ran : List (Initializer C)) : List (Initializer C) → Startup C (List (Initializer C))
  | [] => return ran
  | i :: next => do
    Op.emit (registeringRecord i.name)
    i.register
    registerFrom (ran ++ [i]) next

/-- The register pass; it gives the initializers in the order in which they ran. -/
def registerPass (c : Chain C) : Startup C (List (Initializer C)) := registerFrom [] c.walk

/-- The query pass over a context that no query changes. -/
def queryPass (is : List (Initializer C)) (context : C) : Op Report :=
  is.foldlM (fun report i => do
    match ← i.query context with
    | .ok () => return { report with queried := report.queried + 1 }
    | .error complaint =>
      Op.emit (failedRecord i.name complaint)
      return ⟨report.queried + 1, report.failures ++ [(i.name, complaint)]⟩) {}

def run (c : Chain C) : Startup C Report := do
  let ran ← c.registerPass
  Startup.reading (queryPass ran)

end Chain
end BoxedRuntime
