/-
  BoxedRuntime.Binary64.Basic — 64-bit binary floating point numbers by their bits.

  A number is its bit pattern: the sign, eleven bits of exponent, fifty-two of fraction.
  Nothing is computed with reals here; they are compared, written and read. Comparison
  is the arithmetic one: a NaN equals nothing, the two zeros are equal.
-/

namespace BoxedRuntime

structure Binary64 where
  bits : UInt64
  deriving DecidableEq, Repr

namespace Binary64

/-- The highest bit. -/
def signBit : Nat := 0x8000000000000000

/-- The lowest bit of the exponent, just above the fraction. -/
def exponentUnit : Nat := 0x10000000000000

def negative (x : Binary64) : Bool := signBit ≤ x.bits.toNat

/-- The bits below the sign. -/
def magnitude (x : Binary64) : Nat := x.bits.toNat % signBit

/-- The magnitude of the infinities; every magnitude above it is a NaN. -/
def infinite : Nat := 2047 * exponentUnit

def isNaN (x : Binary64) : Bool := infinite < x.magnitude

def isZero (x : Binary64) : Bool := x.magnitude = 0

/-- The number with this sign and these bits below it. -/
def ofMagnitude (negative : Bool) (magnitude : Nat) : Binary64 :=
  ⟨UInt64.ofNat (if negative then signBit + magnitude else magnitude)⟩

/-- Equal as numbers. -/
def numEq (x y : Binary64) : Bool := !x.isNaN && !y.isNaN && (x == y || x.isZero && y.isZero)

theorem numEq_self {x : Binary64} : x.numEq x = !x.isNaN := by simp [numEq]

theorem numEq_comm (x y : Binary64) : x.numEq y = y.numEq x := by
  simp only [numEq, Bool.and_comm, BEq.comm]

theorem numEq_trans {x y z : Binary64} (hxy : x.numEq y = true) (hyz : y.numEq z = true) : x.numEq z = true := by
  simp only [numEq, Bool.and_eq_true, Bool.or_eq_true, Bool.not_eq_true', beq_iff_eq] at hxy hyz ⊢
  obtain ⟨⟨hx, hy⟩, h⟩ := hxy
  obtain ⟨⟨-, hz⟩, h'⟩ := hyz
  refine ⟨⟨hx, hz⟩, ?_⟩
  rcases h with rfl | h
  · exact h'
  · rcases h' with rfl | h'
    · exact Or.inr h
    · exact Or.inr ⟨h.1, h'.2⟩

end Binary64
end BoxedRuntime
