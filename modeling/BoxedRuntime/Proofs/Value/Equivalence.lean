/-
  BoxedRuntime.Proofs.Value.Equivalence — equality of handles is an equivalence.

  Equality mixes two relations at every level: to be one object, and to hold equal
  payloads. Reals are compared as numbers, so a payload need not equal itself; a handle
  does, since it is one object with itself. Transitivity meets the mixture: of two
  steps one may be by identity and the other by content. In a run an identity step
  changes nothing, for there one id is one object.

  Main statements:
  - `Payload.equal_cases`: what equality of payloads comes down to.
  - `Handle.equal_symm`: equality is symmetric.
  - `Coherent.equal_trans`: equality is transitive among the handles of a run.
  - `Run.equal_equivalence`: equality is an equivalence on the handles of a run.
-/
import BoxedRuntime.Proofs.Value.Identity
import BoxedRuntime.Value.Equality
import Mathlib.Data.List.Forall2

namespace BoxedRuntime

/-! ## Lists of equals -/

section Lists

variable {α : Type} {R : α → α → Prop} {xs ys zs : List α}

theorem forall₂_symm_on (hR : ∀ x ∈ xs, ∀ y, R x y → R y x) (h : List.Forall₂ R xs ys) : List.Forall₂ R ys xs := by
  induction h with
  | nil => exact .nil
  | cons hxy _ ih =>
    exact .cons (hR _ List.mem_cons_self _ hxy) (ih fun x hx => hR x (List.mem_cons_of_mem _ hx))

theorem forall₂_trans_on (hR : ∀ x ∈ xs, ∀ y ∈ ys, ∀ z ∈ zs, R x y → R y z → R x z) (h : List.Forall₂ R xs ys)
    (h' : List.Forall₂ R ys zs) : List.Forall₂ R xs zs := by
  induction h generalizing zs with
  | nil => exact h'
  | cons hxy _ ih =>
    cases h' with
    | cons hyz htail =>
      refine .cons (hR _ List.mem_cons_self _ List.mem_cons_self _ List.mem_cons_self hxy hyz) (ih ?_ htail)
      intro x hx y hy z hz
      exact hR x (List.mem_cons_of_mem _ hx) y (List.mem_cons_of_mem _ hy) z (List.mem_cons_of_mem _ hz)

theorem forall₂_imp_on {S : α → α → Prop} (hRS : ∀ x ∈ xs, ∀ y ∈ ys, R x y → S x y) (h : List.Forall₂ R xs ys) :
    List.Forall₂ S xs ys := by
  induction h with
  | nil => exact .nil
  | cons hxy _ ih =>
    refine .cons (hRS _ List.mem_cons_self _ List.mem_cons_self hxy) (ih ?_)
    intro x hx y hy
    exact hRS x (List.mem_cons_of_mem _ hx) y (List.mem_cons_of_mem _ hy)

end Lists

theorem itemsEqual_iff {xs ys : List Handle} :
    itemsEqual xs ys = true ↔ List.Forall₂ (fun x y => x.equal y = true) xs ys := by
  induction xs generalizing ys with
  | nil => cases ys <;> simp [itemsEqual]
  | cons x xs ih => cases ys <;> simp [itemsEqual, ih]

/-- Fields of one key, with equal values. -/
def fieldEqual (f g : String × Handle) : Prop := f.1 = g.1 ∧ f.2.equal g.2 = true

theorem fieldsEqual_iff {xs ys : List (String × Handle)} :
    fieldsEqual xs ys = true ↔ List.Forall₂ fieldEqual xs ys := by
  induction xs generalizing ys with
  | nil => cases ys <;> simp [fieldsEqual]
  | cons f xs ih =>
    obtain ⟨k, x⟩ := f
    cases ys with
    | nil => simp [fieldsEqual]
    | cons g ys => simp [fieldsEqual, fieldEqual, ih]

/-! ## Payloads -/

/-- Equal payloads are the same, or equal reals, or lists or records of equals. -/
theorem Payload.equal_cases {p q : Payload} (h : p.equal q = true) :
    p = q ∨ (∃ x y, p = .real x ∧ q = .real y ∧ x.numEq y = true) ∨
      (∃ xs ys, p = .list xs ∧ q = .list ys ∧ List.Forall₂ (fun x y => x.equal y = true) xs ys) ∨
      (∃ xs ys, p = .record xs ∧ q = .record ys ∧ List.Forall₂ fieldEqual xs ys) := by
  cases p with
  | real x => cases q <;> simp_all [Payload.equal]
  | list xs => cases q <;> simp_all [Payload.equal, itemsEqual_iff]
  | record xs => cases q <;> simp_all [Payload.equal, fieldsEqual_iff]
  | _ => left; cases q <;> simp_all [Payload.equal]

theorem Payload.equal_list {xs ys : List Handle} :
    (Payload.list xs).equal (.list ys) = true ↔ List.Forall₂ (fun x y => x.equal y = true) xs ys := by
  rw [Payload.equal, itemsEqual_iff]

theorem Payload.equal_record {xs ys : List (String × Handle)} :
    (Payload.record xs).equal (.record ys) = true ↔ List.Forall₂ fieldEqual xs ys := by
  rw [Payload.equal, fieldsEqual_iff]

theorem Handle.equal_iff {x y : Handle} : x.equal y = true ↔ x.id = y.id ∨ x.payload.equal y.payload = true := by
  simp [Handle.equal_def, Handle.sameObject]

/-- A list or a record is equal to itself, whatever its values are. -/
theorem Payload.list_equal_self (xs : List Handle) : (Payload.list xs).equal (.list xs) = true :=
  Payload.equal_list.mpr (List.forall₂_same.mpr fun x _ => x.equal_self)

theorem Payload.record_equal_self (xs : List (String × Handle)) : (Payload.record xs).equal (.record xs) = true :=
  Payload.equal_record.mpr (List.forall₂_same.mpr fun f _ => ⟨rfl, f.2.equal_self⟩)

/-! ## Symmetry -/

theorem Payload.equal_symm_of {p q : Payload}
    (hp : ∀ x ∈ p.children, ∀ y, x.equal y = true → y.equal x = true) (h : p.equal q = true) : q.equal p = true := by
  rcases Payload.equal_cases h with rfl | ⟨x, y, rfl, rfl, hxy⟩ | ⟨xs, ys, rfl, rfl, hxy⟩ | ⟨xs, ys, rfl, rfl, hxy⟩
  · exact h
  · exact (Binary64.numEq_comm y x).trans hxy
  · exact Payload.equal_list.mpr (forall₂_symm_on hp hxy)
  · refine Payload.equal_record.mpr (forall₂_symm_on ?_ hxy)
    intro f hf g ⟨hk, hv⟩
    exact ⟨hk.symm, hp f.2 (List.mem_map_of_mem hf) g.2 hv⟩

theorem Handle.equal_symm (x : Handle) : ∀ y, x.equal y = true → y.equal x = true := by
  induction x using Handle.induct with
  | step x ih =>
    intro y h
    rcases Handle.equal_iff.mp h with hid | hp
    · exact Handle.equal_iff.mpr (Or.inl hid.symm)
    · exact Handle.equal_iff.mpr (Or.inr (Payload.equal_symm_of ih hp))

/-! ## Transitivity -/

theorem Payload.equal_trans_of {p q r : Payload}
    (hp : ∀ x ∈ p.children, ∀ y ∈ q.children, ∀ z ∈ r.children,
      x.equal y = true → y.equal z = true → x.equal z = true)
    (hpq : p.equal q = true) (hqr : q.equal r = true) : p.equal r = true := by
  rcases Payload.equal_cases hpq with
    rfl | ⟨x, y, rfl, rfl, hxy⟩ | ⟨xs, ys, rfl, rfl, hxy⟩ | ⟨xs, ys, rfl, rfl, hxy⟩
  · exact hqr
  · cases r with
    | real z => exact Binary64.numEq_trans hxy hqr
    | _ => cases hqr
  · cases r with
    | list zs => exact Payload.equal_list.mpr (forall₂_trans_on hp hxy (Payload.equal_list.mp hqr))
    | _ => cases hqr
  · cases r with
    | record zs =>
      refine Payload.equal_record.mpr (forall₂_trans_on ?_ hxy (Payload.equal_record.mp hqr))
      intro f hf g hg l hl ⟨hfg, hfv⟩ ⟨hgl, hgv⟩
      exact ⟨hfg.trans hgl, hp f.2 (List.mem_map_of_mem hf) g.2 (List.mem_map_of_mem hg) l.2
        (List.mem_map_of_mem hl) hfv hgv⟩
    | _ => cases hqr

/-- A step by identity is a step from a handle to itself; only steps by content go on
    into what the objects hold. -/
theorem Coherent.equal_trans {hs : List Handle} (h : Coherent hs) (x : Handle) :
    x ∈ hs → ∀ y ∈ hs, ∀ z ∈ hs, x.equal y = true → y.equal z = true → x.equal z = true := by
  induction x using Handle.induct with
  | step x ih =>
    intro hx y hy z hz hxy hyz
    rcases Handle.equal_iff.mp hxy with hid | hp
    · rw [h.unique x hx y hy hid]
      exact hyz
    · rcases Handle.equal_iff.mp hyz with hid | hq
      · rw [← h.unique y hy z hz hid]
        exact hxy
      · refine Handle.equal_iff.mpr (Or.inr (Payload.equal_trans_of ?_ hp hq))
        intro u hu v hv w hw
        exact ih u hu (h.children x hx u hu) v (h.children y hy v hv) w (h.children z hz w hw)

/-! ## Equivalence -/

/-- Equality is an equivalence on the handles of a run, whatever they hold, although reals
    are compared by a relation that is not reflexive. -/
theorem Run.equal_equivalence {s : Session} {hs : List Handle} (h : Run s hs) :
    Equivalence (fun x y : { x : Handle // x ∈ hs } => x.1.equal y.1 = true) ∧
      ∃ x : Binary64, x.numEq x = false := by
  refine ⟨⟨fun x => Handle.equal_self x.1, fun {x y} => Handle.equal_symm x.1 y.1, ?_⟩, ⟨0x7FF8000000000000⟩, rfl⟩
  intro x y z
  exact h.coherent.equal_trans x.1 x.2 y.1 y.2 z.1 z.2

/-- Two lists, one with a forged header, are equal either way round because they share
    a NaN; another NaN equals none of it. -/
theorem shared_nan_equal :
    let nan : Handle := ⟨0, liveMagic, .real, .real ⟨0x7FF8000000000000⟩⟩
    let a : Handle := ⟨1, liveMagic, .list, .list [nan]⟩
    let b : Handle := ⟨2, 0, .int, .list [nan]⟩
    let other : Handle := ⟨3, liveMagic, .real, .real ⟨0x7FF8000000000000⟩⟩
    Run { nextId := 4 } [other, b, a, nan] ∧ a.equal b = true ∧ b.equal a = true ∧ other.equal nan = false := by
  intro nan a b other
  have h₁ : Run { nextId := 1 } [nan] := .allocate (.start {}) (by simp [Payload.children]) rfl
  have h₂ : Run { nextId := 2 } [a, nan] := .allocate h₁ (by simp [Payload.children]) rfl
  have h₃ : Run { nextId := 3 } [b, a, nan] := .allocate h₂ (by simp [Payload.children]) rfl
  have h₄ : Run { nextId := 4 } [other, b, a, nan] := .allocate h₃ (by simp [Payload.children]) rfl
  have hab : a.equal b = true := rfl
  exact ⟨h₄, hab, h₄.equal_equivalence.1.symm (x := ⟨a, by simp⟩) (y := ⟨b, by simp⟩) hab, rfl⟩

end BoxedRuntime
