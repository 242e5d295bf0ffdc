/-
  BoxedRuntime.Boxing — making boxed values.

  One operation for each kind, and `scalar`, which makes a value of a given tag from a
  machine word. A word outside the domain of the destination is a range fault: a byte is
  `0..=255`, a character is a Unicode scalar value, a boolean is `0` or `1`.
-/
import BoxedRuntime.OrderedMap
import BoxedRuntime.Session

namespace BoxedRuntime

/-! ## Domains of the narrow kinds -/

def byte? (raw : Int64) : Option UInt8 :=
  if 0 ≤ raw.toInt ∧ raw.toInt < 256 then some (UInt8.ofNat raw.toInt.toNat) else none

/-- Unicode scalar values: code points without the surrogates. -/
def scalarValue? (raw : Int64) : Option Char :=
  if 0 ≤ raw.toInt ∧ raw.toInt.toNat.isValidChar then some (Char.ofNat raw.toInt.toNat) else none

def bool? (raw : Int64) : Option Bool :=
  if raw = 0 then some false else if raw = 1 then some true else none

namespace Boxing

def null : Op Handle := Op.box .null

def bool (b : Bool) : Op Handle := Op.box (.bool b)

def int (n : Int64) : Op Handle := Op.box (.int n)

def byte (raw : Int64) : Op Handle :=
  match byte? raw with
  | some b => Op.box (.byte b)
  | none => Op.raise (.range "box_byte" (Numeral.word raw ++ " is not in 0..=255"))

def char (raw : Int64) : Op Handle :=
  match scalarValue? raw with
  | some c => Op.box (.char c)
  | none => Op.raise (.range "box_char" (Numeral.word raw ++ " is not a unicode scalar value"))

def real (x : Binary64) : Op Handle := Op.box (.real x)

def string (s : String) : Op Handle := Op.box (.string s)

def list (items : List Handle) : Op Handle := Op.box (.list items)

/-- The last of several fields with one key stays. -/
def record (fields : List (String × Handle)) : Op Handle := Op.box (.record (OrderedMap.ofList fields))

/-- The value of a scalar tag with this word as its payload; for `null` the word is ignored. -/
def scalar (tag : Tag) (raw : Int64) : Op Handle :=
  match tag with
  | .null => null
  | .int => int raw
  | .byte => byte raw
  | .char => char raw
  | .bool =>
    match bool? raw with
    | some b => bool b
    | none => Op.raise (.range "make_scalar" (Numeral.word raw ++ " is not a bool payload"))
  | .real | .string | .list | .record => Op.raise (.unsupported "make_scalar" tag)

end Boxing
end BoxedRuntime
