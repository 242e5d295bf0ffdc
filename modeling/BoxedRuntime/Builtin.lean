/-
  BoxedRuntime.Builtin — the modules every runtime has.

  `convert` registers the shipped conversions, `text` the rendering routine. Each asks
  afterwards that what it registered is there; `convert` also that its signatures are
  well formed.
-/
import BoxedRuntime.Chain
import BoxedRuntime.Conversion
import BoxedRuntime.Rendering

namespace BoxedRuntime

/-- A module of the runtime fills the table of routines. -/
abbrev Module := Initializer Registry

namespace Builtin

/-- The complaint about a key that is not in the registry. -/
def missing (name : String) (signature : Signature) : String := s!"{name} {signature.text} is not registered"

def malformed (name : String) (signature : Signature) : String :=
  s!"{name} has malformed signature {signature.text}"

def conversionVerdict (r : Registry) (c : Conversion) : Verdict :=
  if !c.signature.wellFormed then .error (malformed c.name c.signature)
  else if !r.contains c.name c.signature then .error (missing c.name c.signature)
  else .ok ()

def convert : Module where
  name := "convert"
  register := Conversion.shipped.forM fun c => Registry.register c.name c.signature c.routine
  query r := pure (Conversion.shipped.forM (conversionVerdict r))

def text : Module where
  name := "text"
  register := Registry.register Rendering.name Rendering.signature Rendering.routine
  query r := pure (if r.contains Rendering.name Rendering.signature then .ok ()
    else .error (missing Rendering.name Rendering.signature))

/-- The builtin modules, in link order. -/
def modules : List Module := [convert, text]

end Builtin
end BoxedRuntime
