/-
  BoxedRuntime.Text.Numeral — numerals as lists of characters.

  Written: naturals in any base up to sixteen, integers in decimal with a leading `-`,
  padding to a width. Read: `[+-]?[0-9]+`, by value, so that signs and leading zeros
  are accepted and a text outside the range of a word is refused.
-/

namespace BoxedRuntime.Numeral

def decimal (n : Nat) : List Char := Nat.toDigits 10 n

def ofInt : Int → List Char
  | .ofNat n => decimal n
  | .negSucc n => '-' :: decimal (n + 1)

def ofInt64 (n : Int64) : List Char := ofInt n.toInt

/-- A word in a message. -/
def word (n : Int64) : String := String.ofList (ofInt64 n)

/-- Lower-case hexadecimal without leading zeros. -/
def hex (n : Nat) : List Char := Nat.toDigits 16 n

def binary (n : Nat) : List Char := Nat.toDigits 2 n

def padLeft (width : Nat) (fill : Char) (cs : List Char) : List Char :=
  List.replicate (width - cs.length) fill ++ cs

def padRight (width : Nat) (fill : Char) (cs : List Char) : List Char :=
  cs ++ List.replicate (width - cs.length) fill

/-! ## Reading -/

/-- At least one digit, and digits only. -/
def readNat? (cs : List Char) : Option Nat :=
  if cs ≠ [] ∧ cs.all Char.isDigit then some (Nat.ofDigitChars 10 cs 0) else none

def readInt? : List Char → Option Int
  | '-' :: cs => (readNat? cs).map fun n => -(n : Int)
  | '+' :: cs => (readNat? cs).map fun n => (n : Int)
  | cs => (readNat? cs).map fun n => (n : Int)

/-- The numeral of a 64-bit word; one that does not fit is no numeral. -/
def readInt64? (cs : List Char) : Option Int64 :=
  (readInt? cs).bind fun n =>
    if Int64.minValue.toInt ≤ n ∧ n ≤ Int64.maxValue.toInt then some (Int64.ofInt n) else none

end BoxedRuntime.Numeral
