/-
  BoxedRuntime.Conversion — conversions between scalar kinds.

  A conversion is a row of data: the tags it accepts, a precondition on the argument's
  word, and the tag of the result. `apply` gives every row its meaning: guard, accepted
  tags, word, precondition, boxing, in this order. Three rows are shipped; of them only
  the one to `int` has no precondition.
-/
import BoxedRuntime.Boxing
import BoxedRuntime.Guard
import BoxedRuntime.Registry

namespace BoxedRuntime

/-- A condition on a machine word. -/
inductive Precondition where
  | any
  | between (lo hi : Int64)
  | unicodeScalar
  deriving DecidableEq, Repr

namespace Precondition

def holds : Precondition → Int64 → Bool
  | any, _ => true
  | between lo hi, raw => lo ≤ raw && raw ≤ hi
  | unicodeScalar, raw => (scalarValue? raw).isSome

def describe : Precondition → String
  | any => "any value"
  | between lo hi => Numeral.word lo ++ "..=" ++ Numeral.word hi
  | unicodeScalar => "a unicode scalar value"

end Precondition

structure Conversion where
  name : String
  signature : Signature
  accepts : List Tag
  precondition : Precondition
  result : Tag
  deriving DecidableEq, Repr

namespace Conversion

def unmet (c : Conversion) (raw : Int64) : Fault :=
  .range c.name (Numeral.word raw ++ " is not in " ++ c.precondition.describe)

def apply (c : Conversion) (x : Handle) : Op Handle := do
  Guard.check x c.name
  if x.tag ∉ c.accepts then Op.raise (.unsupported c.name x.tag)
  else match x.scalar? with
    | none => Op.raise (.internal c.name (x.tag.name ++ " payload is not a scalar"))
    | some raw => if c.precondition.holds raw then Boxing.scalar c.result raw else Op.raise (c.unmet raw)

/-- The row as a routine of one argument. -/
def routine (c : Conversion) : Routine := fun args => do
  let x ← Guard.argument args c.name
  c.apply x

/-! ## The shipped rows -/

def integral : List Tag := [.int, .char, .byte]

def toUnsignedByte : Conversion := ⟨"toUnsignedByte", ⟨"[^d,v,i]"⟩, integral, .between 0 255, .byte⟩

def toUnsignedInt : Conversion := ⟨"toUnsignedInt", ⟨"[^i,v,d]"⟩, integral, .any, .int⟩

def toChar : Conversion := ⟨"toChar", ⟨"[^c,v,i]"⟩, integral, .unicodeScalar, .char⟩

def shipped : List Conversion := [toUnsignedByte, toUnsignedInt, toChar]

end Conversion
end BoxedRuntime
