/-
  BoxedRuntime.Proofs.Boundary.Confinement — where handles come from.

  A handle is obtained in three ways: it was passed in, it is held by an object that is at
  hand, or its object was made. There is no other way, but a routine is any function on
  handles, and a function could make a handle up that has the id of one object and the
  payload of another. `Confined` says that an operation does nothing of the kind: started
  with the objects of a run at hand, it continues the run, and what it gives is of the run.

  Main statements:
  - `Op.Confined.bind`: one confined operation after the other.
  - `Runtime.confined_boot`: what a boot installs is confined if the routines that its
    modules register are; the shipped ones are.
  - `Request.confined_perform`: so is every call into such a runtime.
-/
import BoxedRuntime.Proofs.Boundary.Plain
import BoxedRuntime.Proofs.Startup.Resolution

namespace BoxedRuntime

variable {α β : Type} {hs : List Handle}

theorem Run.raised {s : Session} (h : Run s hs) (f : Fault) : Run (s.raised f) hs := .other h (Nat.le_refl _)

/-- Started where these handles are at hand, the operation leaves them there, and what it
    gives is at hand as well. -/
def Op.Confined (hs : List Handle) (given : α → List Handle) (x : Op α) : Prop :=
  ∀ s, Run s hs → ∃ hs', Run (x s).2 hs' ∧ hs ⊆ hs' ∧ ∀ a, (x s).1 = .ok a → given a ⊆ hs'

namespace Op.Confined

variable {given : α → List Handle} {given' : β → List Handle}

theorem pure {a : α} (h : given a ⊆ hs) : Op.Confined hs given (Pure.pure a) := by
  intro s hrun
  refine ⟨hs, hrun, List.Subset.refl hs, fun b hb => ?_⟩
  cases hb
  exact h

theorem raise (f : Fault) : Op.Confined hs given (Op.raise f) := by
  intro s hrun
  exact ⟨hs, hrun.raised f, List.Subset.refl hs, nofun⟩

theorem bind {x : Op α} {k : α → Op β} (hx : x.Confined hs given)
    (hk : ∀ a hs', hs ⊆ hs' → given a ⊆ hs' → (k a).Confined hs' given') : (x >>= k).Confined hs given' := by
  intro s hrun
  obtain ⟨hs', hrun', hsub, hgiven⟩ := hx s hrun
  rw [Op.bind_apply]
  rcases hxs : x s with ⟨f | a, s'⟩
  · rw [hxs] at hrun'
    exact ⟨hs', hrun', hsub, nofun⟩
  · rw [hxs] at hrun' hgiven
    obtain ⟨hs'', hrun'', hsub', hgiven'⟩ := hk a hs' hsub (hgiven a rfl) s' hrun'
    exact ⟨hs'', hrun'', List.Subset.trans hsub hsub', hgiven'⟩

theorem map {x : Op α} {f : α → β} (hx : x.Confined hs given) (hf : ∀ a, given' (f a) ⊆ given a) :
    (f <$> x).Confined hs given' := by
  rw [map_eq_pure_bind]
  exact hx.bind fun a hs' _ ha => .pure (List.Subset.trans (hf a) ha)

end Op.Confined

/-- An operation that makes one object of what is at hand, or no object. -/
theorem Op.Settles.confined {x : Op Handle} {o : Except Fault Payload} (hx : x.Settles o)
    (ho : ∀ p, o = .ok p → p.children ⊆ hs) : x.Confined hs fun y => [y] := by
  intro s hrun
  rw [hx s]
  cases o with
  | error f => exact ⟨hs, hrun.raised f, List.Subset.refl hs, nofun⟩
  | ok p =>
    refine ⟨_ :: hs, .allocate hrun (fun _ hy => ho p rfl hy) (Op.box_apply p s), List.subset_cons_self _ hs, ?_⟩
    intro y hy
    cases hy
    exact List.cons_subset.mpr ⟨List.mem_cons_self, List.nil_subset _⟩

theorem Op.MakesLeaf.confined {x : Op Handle} (h : x.MakesLeaf) : x.Confined hs fun y => [y] := by
  obtain ⟨o, ho, hleaf⟩ := h
  exact ho.confined fun p hp => by simp [hleaf p hp]

theorem Guard.confined_forM (fault : Option Fault) : (fault.forM Op.raise : Op Unit).Confined hs fun _ => [] := by
  cases fault with
  | some f => exact .raise f
  | none => exact .pure (List.nil_subset hs)

theorem Guard.confined_check (x : Handle) (label : String) : (Guard.check x label).Confined hs fun _ => [] :=
  Guard.confined_forM (Guard.fault? x label)

theorem Guard.confined_checkPointer {p : Pointer Handle} (hp : ∀ x, p = .object x → x ∈ hs) (label : String) :
    (Guard.checkPointer p label).Confined hs fun x => [x] := by
  cases p with
  | object x =>
    refine (Guard.confined_forM _).bind fun _ hs₁ h₁ _ => ?_
    refine (Guard.confined_check x label).bind fun _ hs₂ h₂ _ => .pure ?_
    exact List.cons_subset.mpr ⟨h₂ (h₁ (hp x rfl)), List.nil_subset hs₂⟩
  | stray address words =>
    obtain ⟨f, hf⟩ := Guard.checkPointer_stray address words label
    exact hf ▸ .raise f

theorem Guard.confined_argument {args : List Handle} (h : args ⊆ hs) (label : String) :
    (Guard.argument args label).Confined hs fun x => [x] := by
  unfold Guard.argument
  split
  · refine (Guard.confined_check _ label).bind fun _ hs' hsub _ => .pure ?_
    exact List.Subset.trans h hsub
  · exact .raise _

theorem Entry.confined_readText (text : ForeignText) (label : String) :
    (Entry.readText text label).Confined hs fun _ => [] := by
  unfold Entry.readText
  split
  · exact .raise _
  · split
    · exact .pure (List.nil_subset hs)
    · exact .raise _

/-! ## Routines -/

/-- Whatever it is given and whenever it is called, the routine is confined. It may hold
    some handles of its own from the start. -/
def Routine.Confined (own : List Handle) (f : Routine) : Prop :=
  ∀ hs args, own ⊆ hs → args ⊆ hs → (f args).Confined hs fun y => [y]

/-- All that the runtime can be asked to run is confined. -/
def Runtime.Confined (own : List Handle) (r : Runtime) : Prop :=
  ∀ name signature f, r.registry.lookup name signature = some f → Routine.Confined own f

theorem Conversion.confined_routine (own : List Handle) (c : Conversion) : Routine.Confined own c.routine :=
  fun _ args _ _ => (c.makesLeaf_routine args).confined

theorem Rendering.confined_routine (own : List Handle) : Routine.Confined own Rendering.routine :=
  fun _ args _ _ => (Rendering.makesLeaf_routine args).confined

/-- A boot of modules that register confined routines only. -/
theorem Runtime.confined_boot {own : List Handle} {extensions extra : List Roster}
    (h : ∀ m ∈ extensions ++ extra, ∀ x ∈ m.registrations, Routine.Confined own x.routine)
    {s s' : Session} {r : Runtime}
    (hboot : Runtime.boot (extensions.map Roster.module) (extra.map Roster.module) s = (.ok r, s')) :
    r.Confined own := by
  intro name signature f hf
  obtain ⟨m, hm, hx⟩ := boot_registered hboot hf
  rcases hm with hm | hm
  · rcases Builtin.registered hm hx with ⟨c, -, rfl⟩ | rfl
    · exact c.confined_routine own
    · exact Rendering.confined_routine own
  · exact h m hm _ hx

theorem Runtime.Confined.call {own : List Handle} {r : Runtime} (h : r.Confined own) (hown : own ⊆ hs)
    {args : List Handle} (hargs : args ⊆ hs) (name : String) (signature : Signature) :
    (r.call name signature args).Confined hs fun
      | .ok y => [y]
      | .error _ => [] := by
  unfold Runtime.call Registry.call
  cases hf : r.registry.lookup name signature with
  | none => exact .pure (List.nil_subset hs)
  | some f => exact (h name signature f hf hs args hown hargs).map fun y => List.Subset.refl [y]

/-! ## Calls -/

theorem Request.confined_perform {own : List Handle} {runtime : Runtime} (h : runtime.Confined own) (hown : own ⊆ hs)
    (q : Request Handle) (hq : ∀ x, q.object? = some x → x ∈ hs) :
    (q.perform runtime).Confined hs fun r => r.handle?.toList := by
  cases q with
  | boxNull | boxBool | boxInt =>
    exact (Op.makesLeaf_box rfl).confined.map fun x => List.Subset.refl [x]
  | boxByte raw => exact (Boxing.makesLeaf_scalar .byte raw).confined.map fun x => List.Subset.refl [x]
  | boxChar raw => exact (Boxing.makesLeaf_scalar .char raw).confined.map fun x => List.Subset.refl [x]
  | tagOf p =>
    refine (Guard.confined_checkPointer (p := p) (fun x hx => hq x (hx ▸ rfl)) _).bind fun x hs' _ _ => ?_
    exact .pure (List.nil_subset hs')
  | unboxScalar p =>
    refine (Guard.confined_checkPointer (p := p) (fun x hx => hq x (hx ▸ rfl)) _).bind fun x hs' _ _ => ?_
    cases x.scalar? with
    | some raw => exact .pure (List.nil_subset hs')
    | none => exact .raise _
  | release p =>
    refine (Guard.confined_checkPointer (p := p) (fun x hx => hq x (hx ▸ rfl)) _).bind fun x hs' _ _ => ?_
    exact .pure (List.nil_subset hs')
  | call name signature p =>
    refine (Entry.confined_readText name _).bind fun name hs₁ h₁ _ => ?_
    refine (Entry.confined_readText signature _).bind fun signature hs₂ h₂ _ => ?_
    refine (Guard.confined_checkPointer (p := p) (fun x hx => h₂ (h₁ (hq x (hx ▸ rfl)))) _).bind fun x hs₃ h₃ hx => ?_
    have hown₃ : own ⊆ hs₃ := fun y hy => h₃ (h₂ (h₁ (hown hy)))
    refine (h.call hown₃ hx name ⟨signature⟩).bind fun r hs₄ _ hr => ?_
    cases r with
    | ok y => exact .pure hr
    | error e => exact .raise _

end BoxedRuntime
