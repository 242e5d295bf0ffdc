/-
  BoxedRuntime.Binary64.Reader — reading a number from text.

  An optional sign, then `inf`, `infinity` or `nan` in any case, or digits with at most
  one point among them and at least one digit, and an optional decimal exponent. The
  result is the nearest number, the one with the even significand on a tie; what is too
  great is infinite.
-/
import BoxedRuntime.Binary64.Shortest
import BoxedRuntime.Text.Numeral

namespace BoxedRuntime.Binary64

/-! ## Rounding -/

/-- `num / den`, rounded to the nearest natural number, a half to the even one. -/
def divNearest (num den : Nat) : Nat :=
  let quotient := num / den
  let remainder := num % den
  if 2 * remainder < den ∨ (2 * remainder = den ∧ quotient % 2 = 0) then quotient else quotient + 1

/-- The magnitude nearest to the positive rational `num / den`. The last place is
    `2 ^ (k - 1074)`, for the least `k` that leaves at most fifty-three bits; adding the
    significand to `k` shifted lets a carry raise the exponent. -/
def nearestRatio (num den : Nat) : Nat :=
  let k := (Nat.log2 num + 1074 - Nat.log2 den) - 53
  let scaled (k : Nat) : Nat × Nat := (num * Nat.pow 2 (1074 - k), den * Nat.pow 2 (k - 1074))
  let k := if 2 * exponentUnit * (scaled k).2 ≤ (scaled k).1 then k + 1 else k
  Nat.min infinite (k * exponentUnit + divNearest (scaled k).1 (scaled k).2)

/-- The magnitude nearest to a decimal. Far above and far below the numbers there are,
    the answer is known without forming the power of ten. -/
def nearestDecimal (d : Decimal) : Nat :=
  let leading := d.exponent + (Numeral.decimal d.digits).length
  if d.digits = 0 ∨ leading < -400 then 0
  else if 400 < leading then infinite
  else nearestRatio (d.digits * Nat.pow 10 d.exponent.toNat) (Nat.pow 10 (-d.exponent).toNat)

/-! ## Grammar -/

/-- The digits of an exponent; once it has reached 65536, further digits change nothing. -/
def exponentOf (ds : List Char) : Nat :=
  ds.foldl (fun n c => if n < 65536 then 10 * n + (c.toNat - '0'.toNat) else n) 0

/-- What follows the exponent mark: a sign or none, and at least one digit. -/
def readExponent? (cs : List Char) : Option Int :=
  let (sign, ds) := match cs with
    | '-' :: r => ((-1 : Int), r)
    | '+' :: r => (1, r)
    | r => (1, r)
  if ds ≠ [] ∧ ds.all Char.isDigit then some (sign * exponentOf ds) else none

/-- A decimal without a sign. -/
def readDecimal? (cs : List Char) : Option Decimal :=
  let mark := fun c => c = 'e' ∨ c = 'E'
  let significand := cs.takeWhile (! mark ·)
  let whole := significand.takeWhile (· ≠ '.')
  let places := (significand.dropWhile (· ≠ '.')).drop 1
  let exponent? := match cs.dropWhile (! mark ·) with
    | [] => some 0
    | _ :: r => readExponent? r
  if whole ++ places ≠ [] ∧ (whole ++ places).all Char.isDigit then
    exponent?.map fun e => ⟨Nat.ofDigitChars 10 (whole ++ places) 0, e - places.length⟩
  else none

/-- The magnitude of an unsigned text. -/
def readMagnitude? (cs : List Char) : Option Nat :=
  let lower := cs.map Char.toLower
  if lower = "inf".toList ∨ lower = "infinity".toList then some infinite
  else if lower = "nan".toList then some (infinite + exponentUnit / 2)
  else (readDecimal? cs).map nearestDecimal

def read? : List Char → Option Binary64
  | '-' :: cs => (readMagnitude? cs).map (ofMagnitude true)
  | '+' :: cs => (readMagnitude? cs).map (ofMagnitude false)
  | cs => (readMagnitude? cs).map (ofMagnitude false)

/-! ## Ties and limits -/

example : (read? "9007199254740993".toList).map (·.bits) = some 0x4340000000000000 := by decide +kernel
example : (read? "9007199254740995".toList).map (·.bits) = some 0x4340000000000002 := by decide +kernel
example : (read? "2.4703282292062327e-324".toList).map (·.bits) = some 0 := by decide +kernel
example : (read? "2.4703282292062328e-324".toList).map (·.bits) = some 1 := by decide +kernel
example : (read? "1.7976931348623158e308".toList).map (·.bits) = some 0x7FEFFFFFFFFFFFFF := by decide +kernel
example : (read? "1.7976931348623159e308".toList).map (·.bits) = some 0x7FF0000000000000 := by decide +kernel
example : read? "1e".toList = none := by decide +kernel

end BoxedRuntime.Binary64
