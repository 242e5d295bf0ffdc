/-
  BoxedRuntime.Value.Equality — equality of boxed values.

  Two handles are equal when they refer to one object or to objects with equal payloads.
  Payloads compare by kind and content, items and fields again as handles, reals as
  numbers; header words and identity do not enter otherwise. A NaN is therefore unequal
  to another NaN, and equal to itself only when the object is shared.
-/
import BoxedRuntime.Value.Basic

namespace BoxedRuntime

mutual

def Handle.equal : Handle → Handle → Bool
  | ⟨i, _, _, p⟩, ⟨j, _, _, q⟩ => i == j || Payload.equal p q
termination_by structural x => x

def Payload.equal : Payload → Payload → Bool
  | .null, .null => true
  | .bool a, .bool b => a == b
  | .byte a, .byte b => a == b
  | .char a, .char b => a == b
  | .int a, .int b => a == b
  | .real a, .real b => a.numEq b
  | .string a, .string b => a == b
  | .list xs, .list ys => itemsEqual xs ys
  | .record xs, .record ys => fieldsEqual xs ys
  | _, _ => false
termination_by structural x => x

/-- Item by item, of equal length. -/
def itemsEqual : List Handle → List Handle → Bool
  | [], [] => true
  | x :: xs, y :: ys => x.equal y && itemsEqual xs ys
  | _, _ => false
termination_by structural x => x

/-- Field by field, of equal keys. -/
def fieldsEqual : List (String × Handle) → List (String × Handle) → Bool
  | [], [] => true
  | (k, x) :: xs, (l, y) :: ys => k == l && x.equal y && fieldsEqual xs ys
  | _, _ => false
termination_by structural x => x

end

theorem Handle.equal_def (x y : Handle) : x.equal y = (x.sameObject y || x.payload.equal y.payload) := by
  cases x; cases y; simp [Handle.equal, Handle.sameObject]

theorem Handle.equal_self (x : Handle) : x.equal x = true := by simp [equal_def, sameObject]

theorem Handle.equal_of_payload {x y : Handle} (h : x.payload = y.payload) (hself : y.payload.equal y.payload = true) :
    x.equal y = true := by
  rw [equal_def, h, hself, Bool.or_true]

theorem Payload.equal_self_of_scalar? {p : Payload} {n : Int64} (h : p.scalar? = some n) : p.equal p = true := by
  cases p with
  | real | string | list | record => cases h
  | _ => simp [Payload.equal]

theorem Payload.eq_of_equal {p q : Payload} {n : Int64} (hp : p.scalar? = some n) (h : p.equal q = true) : p = q := by
  cases p with
  | real | string | list | record => cases hp
  | _ => cases q <;> simp_all [Payload.equal]

end BoxedRuntime
