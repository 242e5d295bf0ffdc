/-
  BoxedRuntime.Binary64.Text — how a number is written.

  The shortest digits that read back. Magnitudes from `10 ^ -4` to below `10 ^ 16` are
  positional with at least one place after the point; all others have one digit before
  the point and a decimal exponent. Zero keeps its sign; a NaN has none.
-/
import BoxedRuntime.Binary64.Shortest
import BoxedRuntime.Text.Numeral

namespace BoxedRuntime.Binary64

/-- The exponents of the leading digit that are written positionally. -/
def positional (exponent : Int) : Bool := -4 ≤ exponent && exponent < 16

/-- The digits `ds`, the first standing for `10 ^ exponent`, in positional notation. -/
def writePositional (ds : List Char) (exponent : Int) : List Char :=
  if exponent < 0 then ['0', '.'] ++ List.replicate (-exponent - 1).toNat '0' ++ ds
  else
    let whole := exponent.toNat + 1
    let rest := ds.drop whole
    Numeral.padRight whole '0' (ds.take whole) ++ '.' :: (if rest = [] then ['0'] else rest)

def writeScientific (ds : List Char) (exponent : Int) : List Char :=
  let rest := ds.drop 1
  ds.take 1 ++ (if rest = [] then [] else '.' :: rest) ++ 'e' :: Numeral.ofInt exponent

def writeDecimal (d : Decimal) : List Char :=
  let digits := Numeral.decimal d.digits
  let exponent := d.exponent + digits.length - 1
  let ds := (digits.reverse.dropWhile (· = '0')).reverse
  if positional exponent then writePositional ds exponent else writeScientific ds exponent

def writeMagnitude (magnitude : Nat) : List Char :=
  if magnitude = infinite then ['i', 'n', 'f']
  else if magnitude = 0 then ['0', '.', '0']
  else writeDecimal (shortest magnitude)

def text (x : Binary64) : List Char :=
  if x.isNaN then ['N', 'a', 'N'] else (if x.negative then ['-'] else []) ++ writeMagnitude x.magnitude

/-! ## Where the notation changes, and a tie -/

example : text ⟨0x3FB999999999999A⟩ = "0.1".toList := by decide +kernel
example : text ⟨0x8000000000000000⟩ = "-0.0".toList := by decide +kernel
example : text ⟨0x3F1A36E2EB1C432D⟩ = "0.0001".toList := by decide +kernel
example : text ⟨0x3EE4F8B588E368F1⟩ = "1e-5".toList := by decide +kernel
example : text ⟨0x4341C37937E07FFF⟩ = "9999999999999998.0".toList := by decide +kernel
example : text ⟨0x4341C37937E08000⟩ = "1e16".toList := by decide +kernel
example : text ⟨0x0000000000000001⟩ = "5e-324".toList := by decide +kernel
example : text ⟨0x3E60000000000000⟩ = "2.9802322387695313e-8".toList := by decide +kernel

end BoxedRuntime.Binary64
