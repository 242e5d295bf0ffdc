/-
  BoxedRuntime.Proofs.Value.Identity — the objects of a run.

  A run allocates one object after the other, each with header words and a payload of
  any kind whose handles are handles of the run; whatever else happens in between
  only ever moves on to later ids. So an object is known by its id, and the handles of
  a run are closed under looking into lists and records.

  Main statements:
  - `Handle.induct`: induction over what a handle holds.
  - `Handle.everywhere_iff`: a property of everything reachable, one level at a time.
  - `Run.coherent`: in a run, handles of one id are one handle, and what they hold is of
    the run.
-/
import BoxedRuntime.Session

namespace BoxedRuntime

/-! ## What a handle holds -/

theorem Handle.sizeOf_child {x y : Handle} (h : y ∈ x.payload.children) : sizeOf y < sizeOf x := by
  obtain ⟨i, m, t, p⟩ := x
  simp only [Handle.mk.sizeOf_spec]
  cases p with
  | list items =>
    have := List.sizeOf_lt_of_mem (show y ∈ items from h)
    simp only [Payload.list.sizeOf_spec]
    omega
  | record fields =>
    obtain ⟨⟨k, z⟩, hf, rfl⟩ := List.mem_map.mp (show y ∈ fields.map (·.2) from h)
    have := List.sizeOf_lt_of_mem hf
    simp only [Prod.mk.sizeOf_spec, Payload.record.sizeOf_spec] at this ⊢
    omega
  | _ => cases h

theorem Handle.induct {P : Handle → Prop} (step : ∀ x, (∀ y ∈ x.payload.children, P y) → P x) (x : Handle) : P x :=
  step x fun y h =>
    have := Handle.sizeOf_child h
    Handle.induct step y
termination_by sizeOf x

/-- From the one handle the other is reached through lists and records. -/
inductive Handle.Reaches : Handle → Handle → Prop
  | self (x : Handle) : Reaches x x
  | child {x y z : Handle} : y ∈ x.payload.children → Reaches y z → Reaches x z

theorem Handle.Reaches.trans {x y z : Handle} (hxy : x.Reaches y) (hyz : y.Reaches z) : x.Reaches z := by
  induction hxy with
  | self => exact hyz
  | child hmem _ ih => exact .child hmem (ih hyz)

/-- The handle itself has the property, and so does all that is reached from it. -/
def Handle.Everywhere (P : Handle → Prop) (x : Handle) : Prop := ∀ y, x.Reaches y → P y

theorem Handle.everywhere_iff {P : Handle → Prop} {x : Handle} :
    x.Everywhere P ↔ P x ∧ ∀ y ∈ x.payload.children, y.Everywhere P := by
  constructor
  · intro h
    exact ⟨h x (.self x), fun y hy z hz => h z (.child hy hz)⟩
  · intro ⟨hx, h⟩ z hz
    cases hz with
    | self => exact hx
    | child hy hz => exact h _ hy z hz

/-! ## Runs -/

/-- A session of a run, with the handles to the objects it has allocated. -/
inductive Run : Session → List Handle → Prop
  | start (s : Session) : Run s []
  | allocate {s s' : Session} {hs : List Handle} {magic : UInt32} {tag : Tag} {payload : Payload} {x : Handle} :
      Run s hs → (∀ y ∈ payload.children, y ∈ hs) → Op.allocate magic tag payload s = (.ok x, s') →
      Run s' (x :: hs)
  /-- Anything else: objects of no interest may be allocated, nothing is ever taken back. -/
  | other {s s' : Session} {hs : List Handle} : Run s hs → s.nextId ≤ s'.nextId → Run s' hs

/-- Handles that stand for objects: one id, one object, and all that they hold is there. -/
structure Coherent (hs : List Handle) : Prop where
  children : ∀ x ∈ hs, ∀ y ∈ x.payload.children, y ∈ hs
  unique : ∀ x ∈ hs, ∀ y ∈ hs, x.id = y.id → x = y

theorem Run.lt_nextId {s : Session} {hs : List Handle} (h : Run s hs) : ∀ x ∈ hs, x.id < s.nextId := by
  induction h with
  | start => intro x hx; cases hx
  | allocate _ _ ha ih =>
    cases ha
    intro x hx
    rcases List.mem_cons.mp hx with rfl | hx
    · exact Nat.lt_succ_self _
    · exact Nat.lt_succ_of_lt (ih x hx)
  | other _ hle ih => intro x hx; exact Nat.lt_of_lt_of_le (ih x hx) hle

theorem Run.coherent {s : Session} {hs : List Handle} (h : Run s hs) : Coherent hs := by
  induction h with
  | start => exact ⟨by simp, by simp⟩
  | @allocate s _ hs magic tag payload _ hrun hchildren ha ih =>
    cases ha
    have fresh : ∀ y ∈ hs, y.id ≠ s.nextId := fun y hy => Nat.ne_of_lt (hrun.lt_nextId y hy)
    constructor
    · intro x hx y hy
      rcases List.mem_cons.mp hx with rfl | hx
      · exact List.mem_cons_of_mem _ (hchildren y hy)
      · exact List.mem_cons_of_mem _ (ih.children x hx y hy)
    · intro x hx y hy he
      rcases List.mem_cons.mp hx with rfl | hx <;> rcases List.mem_cons.mp hy with rfl | hy
      · rfl
      · exact absurd he.symm (fresh y hy)
      · exact absurd he (fresh x hx)
      · exact ih.unique x hx y hy he
  | other _ _ ih => exact ih

end BoxedRuntime
