/-
  BoxedRuntime.Signature — signature descriptors.

  A descriptor encodes the type classes of a routine's result and arguments, such as
  `[^d,v,i]`. To everything but `wellFormed` it is a text like any other: descriptors are
  the same when they are the same text, and they are ordered as texts.
-/

namespace BoxedRuntime

structure Signature where
  text : String
  deriving DecidableEq, Repr

namespace Signature

instance : Ord Signature := ⟨compareOn text⟩

instance : Std.TransOrd Signature := inferInstanceAs (Std.TransCmp (compareOn text))

instance : Std.LawfulEqOrd Signature where
  eq_of_compare {a b} h := by
    cases a; cases b
    exact congrArg _ (Std.LawfulEqOrd.eq_of_compare (show compare _ _ = .eq from h))

/-- The pieces between commas; there is always one piece more than there are commas. -/
def splitCommas : List Char → List (List Char)
  | [] => [[]]
  | ',' :: cs => [] :: splitCommas cs
  | c :: cs =>
    match splitCommas cs with
    | [] => [[c]]
    | piece :: r => (c :: piece) :: r

/-- A class is one or more ASCII letters, with or without a `^` before them. -/
def isClass : List Char → Bool
  | '^' :: cs => !cs.isEmpty && cs.all Char.isAlpha
  | cs => !cs.isEmpty && cs.all Char.isAlpha

/-- One or more classes, separated by commas, between brackets. -/
def wellFormed (s : Signature) : Bool :=
  match s.text.toList with
  | '[' :: cs =>
    match cs.reverse with
    | ']' :: inner => (splitCommas inner.reverse).all isClass
    | _ => false
  | _ => false

end Signature
end BoxedRuntime
