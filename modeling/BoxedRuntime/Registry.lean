/-
  BoxedRuntime.Registry — the table of native routines.

  A routine is found by its name and signature together, each compared as a text. A
  second registration of a key replaces the first and is noted in the log. The table has
  no order of its own: its entries are sorted by name and then by signature when they are
  read out.
-/
import BoxedRuntime.Session
import BoxedRuntime.Signature
import BoxedRuntime.Table

namespace BoxedRuntime

/-- Every routine takes its arguments as a list and gives one value. -/
abbrev Routine := List Handle → Op Handle

structure RoutineKey where
  name : String
  signature : Signature
  deriving DecidableEq, Repr

namespace RoutineKey

instance : Ord RoutineKey := ⟨compareLex (compareOn name) (compareOn signature)⟩

instance : Std.TransOrd RoutineKey := inferInstanceAs (Std.TransCmp (compareLex (compareOn name) (compareOn signature)))

instance : Std.LawfulEqOrd RoutineKey where
  eq_of_compare {a b} h := by
    obtain ⟨hn, hs⟩ := Ordering.then_eq_eq.mp (show (compareOn name a b).then (compareOn signature a b) = .eq from h)
    cases a; cases b
    exact congr (congrArg _ (Std.LawfulEqOrd.eq_of_compare (show compare _ _ = .eq from hn)))
      (Std.LawfulEqOrd.eq_of_compare (show compare _ _ = .eq from hs))

end RoutineKey

/-- A call of a routine that is not there. -/
structure UnknownRoutine where
  name : String
  signature : Signature
  deriving DecidableEq, Repr

def UnknownRoutine.message (e : UnknownRoutine) : String :=
  s!"no routine `{e.name}` with signature `{e.signature.text}`"

structure Registry where
  table : Table RoutineKey Routine := .empty

namespace Registry

def empty : Registry := {}

def lookup (r : Registry) (name : String) (signature : Signature) : Option Routine :=
  r.table.find? ⟨name, signature⟩

def contains (r : Registry) (name : String) (signature : Signature) : Bool := (r.lookup name signature).isSome

def insert (r : Registry) (name : String) (signature : Signature) (routine : Routine) : Registry :=
  ⟨r.table.insert ⟨name, signature⟩ routine⟩

/-- By name, and for one name by signature. -/
def entries (r : Registry) : List (RoutineKey × Routine) := r.table.sorted

def keys (r : Registry) : List RoutineKey := r.entries.map (·.1)

def size (r : Registry) : Nat := r.table.size

def isEmpty (r : Registry) : Bool := r.table.isEmpty

def call (r : Registry) (name : String) (signature : Signature) (args : List Handle) :
    Op (Except UnknownRoutine Handle) :=
  match r.lookup name signature with
  | some routine => .ok <$> routine args
  | none => return .error ⟨name, signature⟩

/-! ## Registering -/

def logTarget : String := "brisk_runtime::registry"

def registrationRecord (name : String) (signature : Signature) : LogRecord :=
  ⟨.trace, logTarget, s!"register {name} {signature.text}"⟩

def replacementRecord (name : String) (signature : Signature) : LogRecord :=
  ⟨.debug, logTarget, s!"routine {name} {signature.text} re-registered; last registration wins"⟩

/-- Register a routine in the registry that is being filled. -/
def register (name : String) (signature : Signature) (routine : Routine) : Startup Registry Unit := do
  Op.emit (registrationRecord name signature)
  let known ← Startup.reading fun r => pure (r.contains name signature)
  Startup.update fun r => r.insert name signature routine
  if known then Op.emit (replacementRecord name signature)

end Registry
end BoxedRuntime
