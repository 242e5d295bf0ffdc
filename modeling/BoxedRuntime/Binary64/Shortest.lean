/-
  BoxedRuntime.Binary64.Shortest — the shortest decimal that reads back as a number.

  A positive finite number is `m * 2 ^ q`. Written in units of `10 ^ -places`, for
  enough places, the number and the two ends of the interval of reals that round to it
  are whole. The search goes from the coarsest decimal grid to the finest and stops at
  the first with a point in the interval; of the two neighbours of the number on that
  grid it takes the nearer, and the greater one on a tie. On the finest grid the number
  itself is a point, so the search always ends with a point of the interval.
-/
import BoxedRuntime.Binary64.Basic

namespace BoxedRuntime

/-- The number `digits * 10 ^ exponent`. -/
structure Decimal where
  digits : Nat
  exponent : Int
  deriving DecidableEq, Repr

namespace Binary64

/-- The reals that round to a positive finite number, in units of `10 ^ -places`. -/
structure Neighbourhood where
  places : Nat
  low : Nat
  value : Nat
  high : Nat
  /-- The ends round to the number too, since its significand is even. -/
  closed : Bool
  deriving DecidableEq, Repr

/-- Halfway to the next number below and above; below a power of two the next number is
    at half the distance. -/
def neighbourhood (magnitude : Nat) : Neighbourhood :=
  let exponent := magnitude / exponentUnit
  let fraction := magnitude % exponentUnit
  let m := if exponent = 0 then fraction else exponentUnit + fraction
  -- The number is `4 * m` quarters of its last place, a quarter being `2 ^ e / 2 ^ 1077`.
  let e := if exponent = 0 then 1 else exponent
  let quarter := if 1077 ≤ e then Nat.pow 2 (e - 1077) else Nat.pow 5 (1077 - e)
  let below := if fraction = 0 ∧ 1 < exponent then 1 else 2
  { places := 1077 - e
    low := (4 * m - below) * quarter
    value := 4 * m * quarter
    high := (4 * m + 2) * quarter
    closed := m % 2 = 0 }

def Neighbourhood.contains (n : Neighbourhood) (x : Nat) : Bool :=
  if n.closed then n.low ≤ x && x ≤ n.high else n.low < x && x < n.high

/-- The multiple of `step` in the interval that lies nearest to the number, if it is one
    of the number's two neighbours; given as the factor. -/
def Neighbourhood.onGrid? (n : Neighbourhood) (step : Nat) : Option Nat :=
  let below := n.value / step
  let above := below + 1
  match n.contains (below * step), n.contains (above * step) with
  | true, true => some (if 2 * n.value < (below + above) * step then below else above)
  | true, false => some below
  | false, true => some above
  | false, false => none

/-- The first hit on the grids `10 ^ k`, …, `10 ^ 0`. -/
def Neighbourhood.search (n : Neighbourhood) : Nat → Decimal
  | 0 => ⟨n.value, -n.places⟩
  | k + 1 =>
    match n.onGrid? (Nat.pow 10 (k + 1)) with
    | some digits => ⟨digits, (k + 1 : Nat) - (n.places : Int)⟩
    | none => n.search k

/-- The search starts at the place of the leading digit. -/
def shortest (magnitude : Nat) : Decimal :=
  let n := neighbourhood magnitude
  n.search ((Nat.toDigits 10 n.value).length - 1)

end Binary64
end BoxedRuntime
