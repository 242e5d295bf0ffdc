/-
  BoxedRuntime.Value.Basic — boxed values.

  A handle refers to an immutable object: two header words and a payload. The header's
  tag repeats the kind of the payload, so that compiled code can read it; nothing but the
  guards (`BoxedRuntime.Guard`) compares the two. `id` tells objects apart: handles with
  one `id` are handles to one object. Lists and records hold handles, so objects may be
  shared.
-/
import BoxedRuntime.Tag
import BoxedRuntime.Binary64.Basic

namespace BoxedRuntime

mutual

structure Handle where
  id : Nat
  magic : UInt32
  tag : Tag
  payload : Payload

/-- The fields of a record stand in increasing order of their keys. -/
inductive Payload where
  | null
  | bool (value : Bool)
  | byte (value : UInt8)
  | char (value : Char)
  | int (value : Int64)
  | real (value : Binary64)
  | string (value : String)
  | list (items : List Handle)
  | record (fields : List (String × Handle))

end

/-- The first header word of every live object. -/
def liveMagic : UInt32 := 0xB215C0DE

namespace Payload

def tag : Payload → Tag
  | null => .null
  | bool _ => .bool
  | byte _ => .byte
  | char _ => .char
  | int _ => .int
  | real _ => .real
  | string _ => .string
  | list _ => .list
  | record _ => .record

/-- The payload as a machine word. -/
def scalar? : Payload → Option Int64
  | null => some 0
  | bool b => some (if b then 1 else 0)
  | byte b => some (Int64.ofNat b.toNat)
  | char c => some (Int64.ofNat c.toNat)
  | int n => some n
  | real _ | string _ | list _ | record _ => none

theorem scalar?_isSome (p : Payload) : p.scalar?.isSome = p.tag.isScalar := by cases p <;> rfl

/-- The handles an object holds. -/
def children : Payload → List Handle
  | list items => items
  | record fields => fields.map (·.2)
  | _ => []

end Payload

namespace Handle

/-- The same object, not merely an equal one. -/
def sameObject (x y : Handle) : Bool := x.id == y.id

def scalar? (x : Handle) : Option Int64 := x.payload.scalar?

/-- Both header words are what the payload calls for. -/
def Sound (x : Handle) : Prop := x.magic = liveMagic ∧ x.tag = x.payload.tag

instance (x : Handle) : Decidable x.Sound := inferInstanceAs (Decidable (_ ∧ _))

theorem Sound.scalar?_isSome {x : Handle} (h : x.Sound) : x.scalar?.isSome = x.tag.isScalar := by
  rw [h.2]
  exact Payload.scalar?_isSome x.payload

end Handle
end BoxedRuntime
