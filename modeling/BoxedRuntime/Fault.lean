/-
  BoxedRuntime.Fault — faults.

  A fault says that the compiled program broke the contract of the runtime. Its kind is
  visible to whoever supervises the process as the exit status; the routine is the one
  cited, the detail is free text.
-/
import BoxedRuntime.Tag

namespace BoxedRuntime

inductive FaultKind where
  /-- A malformed handle, or a call the code generator should not have made. -/
  | internalConsistency
  /-- An operation applied to a tag that it does not accept. -/
  | unsupportedType
  /-- A value outside the domain of its destination. -/
  | rangeViolation
  deriving DecidableEq, Repr

namespace FaultKind

def exitStatus : FaultKind → UInt32
  | internalConsistency => 254
  | unsupportedType => 253
  | rangeViolation => 252

def describe : FaultKind → String
  | internalConsistency => "internal consistency violation"
  | unsupportedType => "unsupported type for this operation"
  | rangeViolation => "precondition not satisfied"

end FaultKind

structure Fault where
  kind : FaultKind
  routine : String
  detail : String
  deriving DecidableEq, Repr

namespace Fault

def message (f : Fault) : String := f.kind.describe ++ " in " ++ f.routine ++ ": " ++ f.detail

/-- The two lines that a process ended by the fault leaves behind. -/
def diagnostic (f : Fault) : String :=
  f.kind.describe ++ "\n  in " ++ f.routine ++ ": " ++ f.detail ++ "\n"

def internal (routine detail : String) : Fault := ⟨.internalConsistency, routine, detail⟩

def range (routine detail : String) : Fault := ⟨.rangeViolation, routine, detail⟩

def unsupported (routine : String) (tag : Tag) : Fault :=
  ⟨.unsupportedType, routine, s!"no implementation for type {tag.name} ({tag.raw})"⟩

end Fault
end BoxedRuntime
