/-
  BoxedRuntime.Rendering — the routine that renders a value as a string.

  A string renders as its own text, null, scalars and reals as their printed form. Lists
  and records have no rendering.
-/
import BoxedRuntime.Boxing
import BoxedRuntime.Guard
import BoxedRuntime.Registry
import BoxedRuntime.Value.Display

namespace BoxedRuntime.Rendering

def name : String := "toString"

def signature : Signature := ⟨"[^s,v,a]"⟩

def rendered? : Payload → Option String
  | .string s => some s
  | .list _ | .record _ => none
  | p => some (String.ofList p.text)

def routine : Routine := fun args => do
  let x ← Guard.argument args name
  match rendered? x.payload with
  | some s => Boxing.string s
  | none => Op.raise (.unsupported name x.tag)

end BoxedRuntime.Rendering
