/-
  BoxedRuntime.Proofs.Value.Cloning — where references come from.

  A handle says which object it is to, not how it was come by. Here a run keeps account of
  that: it has a list of references, numbered in the order in which they were obtained. A
  reference is to a new object, or it is the clone of an earlier one. Lists and records are
  made of references, and to read an item out of one is to clone the reference that was put
  in; so what lies within an object is accounted for as well.

  References are to the same object exactly if they go back to a common one by cloning. One
  direction is what cloning does; the other is freshness: objects are numbered by a counter
  that only goes up, so two references that are no clones are to two objects.

  Main statements:
  - `Recipe.run_cases`: making an object puts in exactly the references that it is made of.
  - `History.provenance`: what holds of all references of a run.
  - `Provenance.sameObject_iff`: same objects by common origin.
  - `Provenance.reached`: what is reached through lists and records is to a reference, too.
-/
import Mathlib.Data.List.Forall2
import Mathlib.Logic.Relation
import BoxedRuntime.Proofs.Value.Construction

namespace BoxedRuntime

/-! ## Making objects of references -/

/-- A way to make a value, from references named by `α`. -/
inductive Recipe (α : Type) where
  | leaf (m : Making) (plain : m.uses = [])
  | list (items : List α)
  | record (fields : List (String × α))
  | conversion (c : Conversion) (x : α)
  | convertRoutine (c : Conversion) (args : List α)
  | renderRoutine (args : List α)

namespace Recipe

variable {α : Type}

def making (handle : α → Handle) : Recipe α → Making
  | leaf m _ => m
  | list items => .list (items.map handle)
  | record fields => .record (fields.map fun f => (f.1, handle f.2))
  | conversion c x => .conversion c (handle x)
  | convertRoutine c args => .convertRoutine c (args.map handle)
  | renderRoutine args => .renderRoutine (args.map handle)

/-- What is put into the object. Of several fields of one key only the last is. -/
def held : Recipe α → List α
  | list items => items
  | record fields => (OrderedMap.ofList fields).map (·.2)
  | _ => []

end Recipe

namespace Recipe

/-- What making comes to: one object more, which holds just these handles; no literal and
    nothing done; or one fault. -/
inductive Comes (hs : List Handle) (x : Op (Except LiteralError Handle)) : Prop
  | value (p : Payload) : p.children = hs →
      (∀ s, x s = (.ok (.ok ⟨s.nextId, liveMagic, p.tag, p⟩), { s with nextId := s.nextId + 1 })) → Comes hs x
  | noLiteral (e : LiteralError) : (∀ s, x s = (.ok (.error e), s)) → Comes hs x
  | fault (f : Fault) : (∀ s, x s = (.error f, s.raised f)) → Comes hs x

theorem Comes.of_nothing {x : Op (Except LiteralError Handle)} (h : Making.Comes [] x) : Comes [] x := by
  cases h with
  | value p hp hrun => exact .value p (List.subset_nil.mp hp) hrun
  | noLiteral e hrun => exact .noLiteral e hrun
  | fault f hrun => exact .fault f hrun

theorem run_cases {α : Type} (r : Recipe α) (handle : α → Handle) :
    Comes (r.held.map handle) (r.making handle).run := by
  cases r with
  | leaf m plain => exact .of_nothing (plain ▸ m.run_cases)
  | conversion c x => exact .of_nothing (.of_makesLeaf (c.makesLeaf_apply _))
  | convertRoutine c args => exact .of_nothing (.of_makesLeaf (c.makesLeaf_routine _))
  | renderRoutine args => exact .of_nothing (.of_makesLeaf (Rendering.makesLeaf_routine _))
  | list items => exact .value (.list (items.map handle)) rfl fun _ => rfl
  | record fields =>
    refine .value (.record (OrderedMap.ofList (fields.map fun f => (f.1, handle f.2)))) ?_ fun _ => rfl
    rw [OrderedMap.ofList_map]
    simp [Payload.children, held]

end Recipe

/-! ## References -/

structure Reference where
  handle : Handle
  /-- The reference that this one is a clone of; the first one to an object has none. -/
  source : Option Nat := none
  /-- The references that were put into the object, in the order in which it holds them. -/
  held : List Nat := []

/-- The reference of this number is to the object. -/
def Refers (refs : List Reference) (i : Nat) (x : Handle) : Prop := ∃ r, refs[i]? = some r ∧ r.handle = x

/-- By cloning, any number of times, the first reference was obtained from the second. -/
def Descends (refs : List Reference) : Nat → Nat → Prop :=
  Relation.ReflTransGen fun i j => ∃ r, refs[i]? = some r ∧ r.source = some j

/-- A session of a run, with the references obtained so far. -/
inductive History : Session → List Reference → Prop
  | start (s : Session) : History s []
  | made {s s' : Session} {refs : List Reference} {α : Type} {x : Handle} (r : Recipe α) {number : α → Nat}
      {handle : α → Handle} : History s refs → (∀ a, Refers refs (number a) (handle a)) →
      (r.making handle).run s = (.ok (.ok x), s') → History s' (refs ++ [⟨x, none, r.held.map number⟩])
  | cloned {s : Session} {refs : List Reference} {i : Nat} {r : Reference} :
      History s refs → refs[i]? = some r → History s (refs ++ [⟨r.handle, some i, r.held⟩])
  /-- Anything else: faults, literals that are none, objects that nobody refers to. -/
  | other {s s' : Session} {refs : List Reference} : History s refs → s.nextId ≤ s'.nextId → History s' refs

/-! ## One more reference -/

theorem getElem?_concat_iff {α : Type} {xs : List α} {x y : α} {i : Nat} :
    (xs ++ [x])[i]? = some y ↔ xs[i]? = some y ∨ i = xs.length ∧ y = x := by
  rcases Nat.lt_trichotomy i xs.length with h | h | h
  · simp [List.getElem?_append_left h, Nat.ne_of_lt h]
  · subst h
    simp [eq_comm]
  · have hxs : xs[i]? = none := List.getElem?_eq_none (Nat.le_of_lt h)
    have hlong : (xs ++ [x])[i]? = none := List.getElem?_eq_none (by rw [List.length_append]; exact h)
    simp [hxs, hlong, Nat.ne_of_gt h]

namespace Refers

variable {refs more : List Reference} {i : Nat} {x y : Handle}

theorem append (h : Refers refs i x) : Refers (refs ++ more) i x := by
  obtain ⟨r, hr, hx⟩ := h
  have hi : i < refs.length := (List.getElem?_eq_some_iff.mp hr).1
  exact ⟨r, by rw [List.getElem?_append_left hi, hr], hx⟩

theorem lt_length (h : Refers refs i x) : i < refs.length := by
  obtain ⟨r, hr, -⟩ := h
  exact (List.getElem?_eq_some_iff.mp hr).1

theorem concat (r : Reference) : Refers (refs ++ [r]) refs.length r.handle :=
  ⟨r, List.getElem?_concat_length, rfl⟩

theorem unique (hx : Refers refs i x) (hy : Refers refs i y) : x = y := by
  obtain ⟨r, hr, rfl⟩ := hx
  obtain ⟨r', hr', rfl⟩ := hy
  rw [hr] at hr'
  cases hr'
  rfl

/-! Several references, to the handles of a list. -/

theorem all_append {numbers : List Nat} {hs : List Handle} (h : List.Forall₂ (Refers refs) numbers hs) :
    List.Forall₂ (Refers (refs ++ more)) numbers hs := h.imp fun _ _ => Refers.append

theorem all_map {α : Type} {number : α → Nat} {handle : α → Handle} (h : ∀ a, Refers refs (number a) (handle a))
    (names : List α) : List.Forall₂ (Refers refs) (names.map number) (names.map handle) :=
  List.forall₂_map_left_iff.mpr (List.forall₂_map_right_iff.mpr (List.forall₂_same.mpr fun a _ => h a))

theorem exists_of_mem {numbers : List Nat} {hs : List Handle} (h : List.Forall₂ (Refers refs) numbers hs)
    (hy : y ∈ hs) : ∃ k, Refers refs k y := by
  induction h with
  | nil => cases hy
  | @cons k x _ _ hk _ ih =>
    rcases List.mem_cons.mp hy with rfl | hy
    · exact ⟨k, hk⟩
    · exact ih hy

end Refers

/-! ## What holds of all references -/

/-- A number below the counter, a sound header, a source that came earlier and is to the
    same object, and what the object holds. Of no object are there two first references. -/
structure Provenance (s : Session) (refs : List Reference) : Prop where
  below : ∀ {i : Nat} {r : Reference}, refs[i]? = some r → r.handle.id < s.nextId
  sound : ∀ {i : Nat} {r : Reference}, refs[i]? = some r → r.handle.Sound
  source : ∀ {i j : Nat} {r : Reference}, refs[i]? = some r → r.source = some j → j < i ∧ Refers refs j r.handle
  first : ∀ {i j : Nat} {r r' : Reference}, refs[i]? = some r → refs[j]? = some r' → r.source = none → r'.source = none →
    r.handle.id = r'.handle.id → i = j
  held : ∀ {i : Nat} {r : Reference}, refs[i]? = some r → List.Forall₂ (Refers refs) r.held r.handle.payload.children

namespace Provenance

variable {s s' : Session} {refs : List Reference}

theorem start (s : Session) : Provenance s [] := ⟨nofun, nofun, nofun, nofun, nofun⟩

theorem mono (h : Provenance s refs) (hle : s.nextId ≤ s'.nextId) : Provenance s' refs :=
  { h with below := fun hr => Nat.lt_of_lt_of_le (h.below hr) hle }

/-- One more reference: a clone of an earlier one, or the first to a new object. -/
theorem concat (h : Provenance s refs) {new : Reference} (hnext : s.nextId ≤ s'.nextId)
    (hbelow : new.handle.id < s'.nextId) (hsound : new.handle.Sound)
    (hsource : ∀ j, new.source = some j → Refers refs j new.handle)
    (hfirst : new.source = none → s.nextId ≤ new.handle.id)
    (hheld : List.Forall₂ (Refers refs) new.held new.handle.payload.children) : Provenance s' (refs ++ [new]) where
  below := by
    intro i r hr
    rcases getElem?_concat_iff.mp hr with hr | ⟨-, rfl⟩
    · exact Nat.lt_of_lt_of_le (h.below hr) hnext
    · exact hbelow
  sound := by
    intro i r hr
    rcases getElem?_concat_iff.mp hr with hr | ⟨-, rfl⟩
    · exact h.sound hr
    · exact hsound
  source := by
    intro i j r hr hj
    rcases getElem?_concat_iff.mp hr with hr | ⟨rfl, rfl⟩
    · exact ⟨(h.source hr hj).1, (h.source hr hj).2.append⟩
    · exact ⟨(hsource j hj).lt_length, (hsource j hj).append⟩
  first := by
    intro i j r r' hr hr' hs hs' hid
    rcases getElem?_concat_iff.mp hr with hold | ⟨rfl, rfl⟩ <;>
      rcases getElem?_concat_iff.mp hr' with hold' | ⟨rfl, rfl⟩
    · exact h.first hold hold' hs hs' hid
    · exact absurd hid (Nat.ne_of_lt (Nat.lt_of_lt_of_le (h.below hold) (hfirst hs')))
    · exact absurd hid.symm (Nat.ne_of_lt (Nat.lt_of_lt_of_le (h.below hold') (hfirst hs)))
    · rfl
  held := by
    intro i r hr
    rcases getElem?_concat_iff.mp hr with hr | ⟨-, rfl⟩
    · exact Refers.all_append (h.held hr)
    · exact Refers.all_append hheld

theorem made (h : Provenance s refs) {p : Payload} {numbers : List Nat}
    (hheld : List.Forall₂ (Refers refs) numbers p.children) :
    Provenance { s with nextId := s.nextId + 1 } (refs ++ [⟨⟨s.nextId, liveMagic, p.tag, p⟩, none, numbers⟩]) :=
  h.concat (Nat.le_succ _) (Nat.lt_succ_self _) ⟨rfl, rfl⟩ nofun (fun _ => Nat.le_refl _) hheld

theorem cloned (h : Provenance s refs) {i : Nat} {r : Reference} (hr : refs[i]? = some r) :
    Provenance s (refs ++ [⟨r.handle, some i, r.held⟩]) := by
  have hbelow : r.handle.id < s.nextId := h.below hr
  have hsound : r.handle.Sound := h.sound hr
  have hheld : List.Forall₂ (Refers refs) r.held r.handle.payload.children := h.held hr
  refine h.concat (Nat.le_refl _) hbelow hsound ?_ nofun hheld
  rintro _ ⟨⟩
  exact ⟨r, hr, rfl⟩

end Provenance

theorem History.provenance {s : Session} {refs : List Reference} (h : History s refs) : Provenance s refs := by
  induction h with
  | start s => exact .start s
  | @made s s' refs α x r number handle _ hnames hrun ih =>
    cases r.run_cases handle with
    | value p hp hmade =>
      rw [hmade s] at hrun
      cases hrun
      exact ih.made (hp ▸ Refers.all_map hnames r.held)
    | noLiteral e hmade =>
      rw [hmade s] at hrun
      cases hrun
    | fault f hmade =>
      rw [hmade s] at hrun
      cases hrun
  | cloned _ hr ih => exact ih.cloned hr
  | other _ hle ih => exact ih.mono hle

/-! ## Origins -/

namespace Provenance

variable {s : Session} {refs : List Reference} (h : Provenance s refs) {i j : Nat} {x y : Handle}

include h

/-- Cloning gives another reference to the same object. -/
theorem descends (hij : Descends refs i j) (hi : Refers refs i x) : Refers refs j x := by
  induction hij using Relation.ReflTransGen.head_induction_on with
  | refl => exact hi
  | head hstep _ ih =>
    obtain ⟨r, hr, hsource⟩ := hstep
    have hx : r.handle = x := Refers.unique ⟨r, hr, rfl⟩ hi
    exact ih (hx ▸ (h.source hr hsource).2)

/-- Every reference goes back to a first one. -/
theorem origin : ∀ {i : Nat} {r : Reference}, refs[i]? = some r →
    ∃ k r', Descends refs i k ∧ refs[k]? = some r' ∧ r'.source = none ∧ r'.handle = r.handle := by
  intro i
  induction i using Nat.strongRecOn with
  | _ i ih =>
    intro r hr
    cases hsource : r.source with
    | none => exact ⟨i, r, .refl, hr, hsource, rfl⟩
    | some j =>
      obtain ⟨hj, r₁, hr₁, hhandle⟩ := h.source hr hsource
      obtain ⟨k, r', hk, hr', hnone, hr'handle⟩ := ih j hj hr₁
      exact ⟨k, r', .head ⟨r, hr, hsource⟩ hk, hr', hnone, hr'handle.trans hhandle⟩

theorem sameObject_iff (hi : Refers refs i x) (hj : Refers refs j y) :
    x.sameObject y = true ↔ ∃ k, Descends refs i k ∧ Descends refs j k := by
  constructor
  · intro hsame
    obtain ⟨r, hr, rfl⟩ := hi
    obtain ⟨r', hr', rfl⟩ := hj
    obtain ⟨k, o, hk, ho, hnone, hhandle⟩ := h.origin hr
    obtain ⟨l, o', hl, ho', hnone', hhandle'⟩ := h.origin hr'
    have hid : o.handle.id = o'.handle.id := by
      rw [hhandle, hhandle']
      exact eq_of_beq hsame
    obtain rfl : k = l := h.first ho ho' hnone hnone' hid
    exact ⟨k, hk, hl⟩
  · intro ⟨k, hik, hjk⟩
    have hxy : x = y := Refers.unique (h.descends hik hi) (h.descends hjk hj)
    rw [hxy]
    exact beq_self_eq_true _

theorem eq_of_sameObject (hi : Refers refs i x) (hj : Refers refs j y) (hxy : x.sameObject y = true) : x = y := by
  obtain ⟨k, hik, hjk⟩ := (h.sameObject_iff hi hj).mp hxy
  exact Refers.unique (h.descends hik hi) (h.descends hjk hj)

theorem child (hi : Refers refs i x) (hy : y ∈ x.payload.children) : ∃ k, Refers refs k y := by
  obtain ⟨r, hr, rfl⟩ := hi
  exact Refers.exists_of_mem (h.held hr) hy

theorem reached (hxy : x.Reaches y) : ∀ {i}, Refers refs i x → ∃ k, Refers refs k y := by
  induction hxy with
  | self => exact fun hi => ⟨_, hi⟩
  | child hmem _ ih =>
    intro i hi
    obtain ⟨k, hk⟩ := h.child hi hmem
    exact ih hk

/-- What is made now is to an object that nothing refers to yet. -/
theorem fresh {m : Making} {s' : Session} (hrun : m.run s = (.ok (.ok x), s')) (hj : Refers refs j y) :
    y.sameObject x = false := by
  have hid : x.id = s.nextId := by
    cases m.run_cases with
    | value p _ hmade =>
      rw [hmade s] at hrun
      cases hrun
      rfl
    | noLiteral e hmade =>
      rw [hmade s] at hrun
      cases hrun
    | fault f hmade =>
      rw [hmade s] at hrun
      cases hrun
  obtain ⟨r, hr, rfl⟩ := hj
  exact beq_false_of_ne (hid ▸ Nat.ne_of_lt (h.below hr))

end Provenance
end BoxedRuntime
