/-
  BoxedRuntime.Proofs.Boundary.Shelter — the objects that calls may get hold of.

  Compiled code has references to objects, routines hold some handles of their own, and a
  call may look into what it is passed and make new objects. All of these are objects of
  one run, with a runtime installed or without (`Sheltered`), so a pointer never comes to
  stand for another object than it was given out for. How a call ends does not matter.

  A reference stays owned until it is taken back, and a call takes back at most the one
  that it is asked to. `Sheltering` says both of a call and is proved piece by piece.

  Main statements:
  - `Sheltered.find?_eq`: what a pointer shows.
  - `Request.enter_sheltering`: one call.
  - `Request.enterAll_sheltered`: any number of calls.
-/
import BoxedRuntime.Proofs.Boundary.Confinement
import BoxedRuntime.Proofs.Boundary.Mirroring

namespace BoxedRuntime

variable {α β : Type} {own hs : List Handle}

/-! ## The objects at hand -/

theorem Boundary.of_find? {b : Boundary} {id : Nat} {x : Handle} (h : b.find? id = some x) :
    x ∈ b.owned ∧ x.id = id :=
  ⟨List.mem_of_find?_eq_some h, by simpa using List.find?_some h⟩

theorem Guard.eq_of_checkPointer {q : Pointer Handle} {label : String} {s : Session} {x : Handle}
    (h : (Guard.checkPointer q label s).1 = .ok x) : q = .object x := by
  cases q with
  | object y =>
    rw [Guard.checkPointer_object] at h
    cases hf : Guard.fault? y label with
    | some f => rw [hf] at h; cases h
    | none => rw [hf] at h; cases h; rfl
  | stray address words =>
    obtain ⟨f, hf⟩ := Guard.checkPointer_stray address words label
    rw [hf] at h
    cases h

/-- All that the next call may get hold of is of this run. -/
structure Sheltered (own hs : List Handle) (p : Boundary × Session) : Prop where
  run : Run p.2 hs
  within : own ⊆ hs
  owned : p.1.owned ⊆ hs
  confined : ∀ r, p.1.installed = some r → r.Confined own

/-- A pointer shows the object of its id that is at hand, or none. -/
theorem Sheltered.find?_eq {p : Boundary × Session} (h : Sheltered own hs p) {id : Nat} {y z : Handle} (hy : y ∈ hs)
    (hid : y.id = id) (hz : p.1.find? id = some z) : z = y := by
  obtain ⟨howned, hzid⟩ := Boundary.of_find? hz
  exact h.run.coherent.unique z (h.owned howned) y hy (hzid.trans hid.symm)

/-- However the call ends, the objects at hand still are, and no reference is taken back
    but one to the object of the id `lost`. -/
def Entry.Sheltering (own : List Handle) (lost : Option Nat) (hs : List Handle) (post : α → List Handle → Prop)
    (x : Entry α) : Prop :=
  ∀ p, Sheltered own hs p → ∃ hs', Sheltered own hs' (x p).2 ∧ hs ⊆ hs' ∧
    (∀ y ∈ p.1.owned, lost ≠ some y.id → y ∈ (x p).2.1.owned) ∧ ∀ a, (x p).1 = .ok a → post a hs'

namespace Entry.Sheltering

variable {lost : Option Nat} {post : α → List Handle → Prop} {post' : β → List Handle → Prop}

/-- A call that only tells something. -/
theorem of_same {x : Entry α} (hx : ∀ p, (x p).2 = p) (hpost : ∀ p a, (x p).1 = .ok a → post a hs) :
    Sheltering own lost hs post x := by
  intro p h
  rw [hx p]
  exact ⟨hs, h, List.Subset.refl hs, fun _ hy _ => hy, hpost p⟩

theorem pure {a : α} (h : post a hs) : Sheltering own lost hs post (Pure.pure a) :=
  of_same (fun _ => rfl) fun _ b hb => by cases hb; exact h

theorem throw (e : Stop) : Sheltering own lost hs post (throw e) := of_same (fun _ => rfl) fun _ _ hb => nomatch hb

theorem lift {o : Op α} {given : α → List Handle} (ho : o.Confined hs given) :
    Sheltering own lost hs (fun a hs' => given a ⊆ hs' ∧ ∃ s, (o s).1 = .ok a) (liftM o) := by
  intro (b, s) h
  obtain ⟨hs', hrun, hsub, hgiven⟩ := ho s h.run
  have hstays : ∀ s', Run s' hs' → Sheltered own hs' (b, s') := fun s' hrun' =>
    ⟨hrun', List.Subset.trans h.within hsub, List.Subset.trans h.owned hsub, h.confined⟩
  rw [Mirrors.lift o s]
  rcases hos : o s with ⟨f | a, s'⟩ <;> rw [hos] at hrun hgiven
  · exact ⟨hs', hstays s' hrun, hsub, fun _ hy _ => hy, nofun⟩
  · refine ⟨hs', hstays s' hrun, hsub, fun _ hy _ => hy, fun c hc => ?_⟩
    cases hc
    exact ⟨hgiven a rfl, s, by rw [hos]⟩

theorem bind {x : Entry α} {k : α → Entry β} (hx : Sheltering own lost hs post x)
    (hk : ∀ a hs', hs ⊆ hs' → post a hs' → Sheltering own lost hs' post' (k a)) :
    Sheltering own lost hs post' (x >>= k) := by
  intro p h
  obtain ⟨hs', h', hsub, hkept, hpost⟩ := hx p h
  rw [Entry.bind_apply]
  rcases hxp : x p with ⟨e | a, p'⟩ <;> rw [hxp] at h' hkept hpost
  · exact ⟨hs', h', hsub, hkept, nofun⟩
  · obtain ⟨hs'', h'', hsub', hkept', hpost'⟩ := hk a hs' hsub (hpost a rfl) p' h'
    exact ⟨hs'', h'', List.Subset.trans hsub hsub', fun y hy hl => hkept' y (hkept y hy hl) hl, hpost'⟩

theorem mono {x : Entry α} {post'' : α → List Handle → Prop} (hx : Sheltering own lost hs post x)
    (hpost : ∀ a hs', post a hs' → post'' a hs') : Sheltering own lost hs post'' x := by
  intro p h
  obtain ⟨hs', h', hsub, hkept, hp⟩ := hx p h
  exact ⟨hs', h', hsub, hkept, fun a ha => hpost a hs' (hp a ha)⟩

theorem raise (f : Fault) : Sheltering own lost hs post (liftM (Op.raise f)) := by
  have hconfined : (Op.raise f).Confined hs fun _ : α => [] := .raise f
  exact (lift hconfined).mono fun _ _ ⟨_, _, h⟩ => nomatch h

theorem map {x : Entry α} (hx : Sheltering own lost hs (fun _ _ => True) x) (f : α → β) :
    Sheltering own lost hs (fun _ _ => True) (f <$> x) := by
  rw [map_eq_pure_bind]
  exact hx.bind fun _ _ _ _ => pure trivial

theorem boundary {k : Boundary → Entry β}
    (hk : ∀ p, Sheltered own hs p → Sheltering own lost hs post' (k p.1)) :
    Sheltering own lost hs post' (Entry.boundary >>= k) := fun p h => hk p h p h

theorem give {x : Handle} (hx : x ∈ hs) : Sheltering own lost hs (fun _ _ => True) (Entry.give x) :=
  fun _ h => ⟨hs, ⟨h.run, h.within, List.cons_subset.mpr ⟨hx, h.owned⟩, h.confined⟩, List.Subset.refl hs,
    fun _ hy _ => List.mem_cons_of_mem x hy, fun _ _ => trivial⟩

theorem disown (id : Nat) : Sheltering own (some id) hs (fun _ _ => True) (Entry.update (·.disown id)) := by
  intro ⟨b, s⟩ h
  refine ⟨hs, ⟨h.run, h.within, List.Subset.trans List.eraseP_subset h.owned, h.confined⟩, List.Subset.refl hs,
    fun y hy hl => ?_, fun _ _ => trivial⟩
  have hid : ¬ (y.id == id) = true := fun he => hl (congrArg some (beq_iff_eq.mp he).symm)
  exact (List.mem_eraseP_of_neg (a := y) hid).mpr hy

theorem resolve (p : Pointer Nat) :
    Sheltering own lost hs (fun q hs' => ∀ x, q = .object x → x ∈ hs' ∧ p = .object x.id) (Entry.resolve p) := by
  cases p with
  | object id =>
    refine boundary fun p h => ?_
    cases hf : p.1.find? id with
    | none => exact throw _
    | some x =>
      refine pure fun y hy => ?_
      cases hy
      obtain ⟨howned, rfl⟩ := Boundary.of_find? hf
      exact ⟨h.owned howned, rfl⟩
  | _ => exact pure nofun

/-- The object at a pointer is at hand, and it is the one that the pointer names. -/
theorem checked (p : Pointer Nat) (label : String) :
    Sheltering own lost hs (fun x hs' => x ∈ hs' ∧ p = .object x.id) (Entry.checked p label) := by
  refine (resolve p).bind fun q hs' _ hq => ?_
  refine (lift (Guard.confined_checkPointer (fun x hx => (hq x hx).1) label)).mono fun x hs'' ⟨hx, s, hxs⟩ => ?_
  exact ⟨hx List.mem_cons_self, (hq x (Guard.eq_of_checkPointer hxs)).2⟩

end Entry.Sheltering

/-! ## Calls -/

open Entry.Sheltering in
theorem Request.enter_sheltering (q : Request Nat) :
    q.enter.Sheltering own q.released? hs (fun _ _ => True) := by
  have boxed : ∀ {x : Op Handle}, x.MakesLeaf →
      (Reply.handle <$> (liftM x >>= Entry.give)).Sheltering own none hs (fun _ _ => True) := by
    intro x hx
    exact .map (.bind (.lift hx.confined) fun _ _ _ hy => .give (hy.1 List.mem_cons_self)) _
  cases q with
  | boxNull | boxBool | boxInt => exact boxed (Op.makesLeaf_box rfl)
  | boxByte raw => exact boxed (Boxing.makesLeaf_scalar .byte raw)
  | boxChar raw => exact boxed (Boxing.makesLeaf_scalar .char raw)
  | tagOf p => exact .map (.bind (.checked p _) fun x _ _ _ => .pure trivial) _
  | unboxScalar p =>
    refine .map (.bind (.checked p _) fun x _ _ _ => ?_) _
    cases x.scalar? with
    | some raw => exact .pure trivial
    | none => exact .raise _
  | release p =>
    have hrelease : (Entry.release p).Sheltering own (release p).released? hs (fun _ _ => True) := by
      refine .bind (.checked p _) fun x _ _ hx => ?_
      rw [hx.2]
      exact .disown x.id
    exact hrelease.bind fun _ _ _ _ => .pure trivial
  | call name signature p =>
    refine .map (.bind (.lift (Entry.confined_readText name _)) fun name _ _ _ => ?_) _
    refine .bind (.lift (Entry.confined_readText signature _)) fun signature _ _ _ => ?_
    refine .bind (.checked p _) fun x hs' _ hx => .boundary fun p h => ?_
    cases hi : p.1.installed with
    | none => exact .raise _
    | some runtime =>
      have harg : [x] ⊆ hs' := List.cons_subset.mpr ⟨hx.1, List.nil_subset hs'⟩
      refine .bind (.lift ((h.confined runtime hi).call h.within harg name ⟨signature⟩)) fun r _ _ hr => ?_
      cases r with
      | ok y => exact .give (hr.1 List.mem_cons_self)
      | error e => exact .raise _

namespace Request

/-- One call after the other, on addresses. -/
def enterAll (p : Boundary × Session) (program : List (Request Nat)) :
    Transcript (Reply Nat) (Boundary × Session) := transcript (fun p q => q.enter p) p program

/-- A reference stays owned until it is taken back, and the objects at hand stay. -/
theorem enterAll_sheltered {p : Boundary × Session} (h : Sheltered own hs p) (program : List (Request Nat)) :
    ∃ hs', Sheltered own hs' (enterAll p program).last ∧ hs ⊆ hs' ∧
      ∀ y ∈ p.1.owned, .release (.object y.id) ∉ program → y ∈ (enterAll p program).last.1.owned := by
  induction program generalizing p hs with
  | nil => exact ⟨hs, h, List.Subset.refl hs, fun _ hy _ => hy⟩
  | cons q program ih =>
    obtain ⟨hs₁, h₁, hsub₁, hkept₁, -⟩ := q.enter_sheltering p h
    have kept : ∀ y ∈ p.1.owned, .release (.object y.id) ∉ q :: program → y ∈ (q.enter p).2.1.owned := by
      intro y hy hfree
      refine hkept₁ y hy fun hreleased => hfree ?_
      rw [eq_release hreleased]
      exact List.mem_cons_self
    rcases hq : q.enter p with ⟨e | r, p₁⟩ <;> rw [hq] at h₁ kept
    · rw [enterAll, transcript_cons_error hq]
      exact ⟨hs₁, h₁, hsub₁, kept⟩
    · obtain ⟨hs₂, h₂, hsub₂, hkept₂⟩ := ih h₁
      rw [enterAll, transcript_cons_ok hq]
      refine ⟨hs₂, h₂, List.Subset.trans hsub₁ hsub₂, fun y hy hfree => ?_⟩
      exact hkept₂ y (kept y hy hfree) (mt (List.mem_cons_of_mem q) hfree)

end Request

end BoxedRuntime
