/-
  BoxedRuntime.Proofs.Fault.Accounting — operations that raise what leaves them.

  A fault is counted when it is raised. That it is caught later makes no difference to the
  count, so what a caller may conclude from a fault depends on the operation: one that
  raises the fault that leaves it and no other adds one, and one that gives a value adds
  nothing. `Op.Accounted` says that of an operation, for every session. It says as well
  that raising was the last thing done: the session left behind is the one that the raise
  left, with no object, record or fault more.

  Everything the runtime does by itself is accounted. Callbacks of modules and routines
  can be anything, so a boot is accounted if the callbacks are, and a call if the routine
  is.

  Main statements:
  - `Op.accounted_iff`: the two ways for an accounted operation to end.
  - `Op.Accounted.bind`: one accounted operation after the other.
  - `Making.accounted`: boxing, literals, conversions and the shipped routines.
  - `Guard.accounted_check`, `accounted_checkPointer`, `accounted_checkArguments`: the guards.
  - `Runtime.accounted_boot`: a boot of modules with accounted callbacks.
  - `Runtime.boot_routines`: what is true of the shipped routines, and of all that the other
    modules register, is true of every routine of a booted runtime.
-/
import BoxedRuntime.Proofs.Startup.Reordering
import BoxedRuntime.Proofs.Value.Construction

namespace BoxedRuntime

variable {α β C : Type}

/-! ## Ends -/

/-- A way to end in which these faults were raised, in this order. All of them count, those
    that were caught and the one that leaves. -/
inductive Session.Ended (s : Session) : List Fault → Except Fault α → Session → Prop
  | value {a : α} {raised : List Fault} {s' : Session} : s'.faults = s.faults + raised.length →
      Ended s raised (.ok a) s'
  /-- The fault that leaves was raised last, and nothing was done after that. -/
  | fault {f : Fault} {caught : List Fault} {t : Session} : t.faults = s.faults + caught.length →
      Ended s (caught ++ [f]) (.error f) (t.raised f)

/-- The fault that leaves, if one does. -/
def leaving : Except Fault α → List Fault
  | .ok _ => []
  | .error f => [f]

namespace Session.Ended

variable {s s' s'' : Session} {raised earlier : List Fault} {r : Except Fault α}

theorem faults (h : s.Ended raised r s') : s'.faults = s.faults + raised.length := by
  cases h with
  | value hcount => exact hcount
  | @fault f caught t hcount =>
    have hraise : (t.raised f).faults = t.faults + 1 := rfl
    rw [hraise, List.length_append, List.length_singleton]
    omega

/-- The same end, seen from where the earlier faults were raised. -/
theorem after (h : s'.Ended raised r s'') (hcount : s'.faults = s.faults + earlier.length) :
    s.Ended (earlier ++ raised) r s'' := by
  cases h with
  | value h =>
    refine .value ?_
    rw [List.length_append]
    omega
  | fault h =>
    rw [← List.append_assoc]
    refine .fault ?_
    rw [List.length_append]
    omega

/-- A fault leaves an operation of any type alike. -/
theorem stop {f : Fault} (h : s.Ended raised (.error f : Except Fault α) s') :
    s.Ended raised (.error f : Except Fault β) s' := by
  cases h with
  | fault h => exact .fault h

theorem of_fault {f : Fault} {t : Session} (h : t.faults = s.faults) :
    s.Ended [f] (.error f : Except Fault α) (t.raised f) :=
  .fault (show t.faults = s.faults + ([] : List Fault).length from h)

/-- Nothing was raised before. -/
theorem of_faults_eq (hcount : s'.faults = s.faults) (h : s'.Ended raised r s'') : s.Ended raised r s'' :=
  h.after (show s'.faults = s.faults + ([] : List Fault).length from hcount)

end Session.Ended

/-! ## Accounted operations -/

/-- Whatever the session, the operation raises the fault that leaves it and no other. -/
def Op.Accounted (x : Op α) : Prop := ∀ s : Session, s.Ended (leaving (x s).1) (x s).1 (x s).2

theorem Op.accounted_iff {x : Op α} :
    x.Accounted ↔ ∀ s : Session, (∃ a s', x s = (.ok a, s') ∧ s'.faults = s.faults) ∨
      ∃ (f : Fault) (t : Session), x s = (.error f, t.raised f) ∧ t.faults = s.faults := by
  refine forall_congr' fun s => ?_
  rcases x s with ⟨f | a, s'⟩
  · constructor
    · intro h
      generalize hraised : leaving (.error f : Except Fault α) = raised at h
      cases h with
      | @fault _ caught t hcount =>
        obtain rfl : [] = caught := List.append_cancel_right (show [] ++ [f] = caught ++ [f] from hraised)
        exact Or.inr ⟨f, t, rfl, hcount⟩
    · intro h
      rcases h with ⟨_, _, heq, -⟩ | ⟨g, t, heq, hcount⟩
      · cases heq
      · cases heq
        exact .of_fault hcount
  · constructor
    · intro h
      exact Or.inl ⟨a, s', rfl, h.faults⟩
    · intro h
      rcases h with ⟨_, _, heq, hcount⟩ | ⟨_, _, heq, -⟩
      · cases heq
        exact .value hcount
      · cases heq

namespace Op.Accounted

theorem pure (a : α) : Op.Accounted (Pure.pure a) := fun _ => .value rfl

theorem emit (r : LogRecord) : (Op.emit r).Accounted := fun _ => .value rfl

theorem raise (f : Fault) : (Op.raise f : Op α).Accounted := fun _ => .of_fault rfl

theorem bind {x : Op α} {k : α → Op β} (hx : x.Accounted) (hk : ∀ a, (k a).Accounted) : (x >>= k).Accounted := by
  intro s
  have h := hx s
  rw [Op.bind_apply]
  rcases hxs : x s with ⟨f | a, s'⟩
  · rw [hxs] at h
    exact h.stop
  · rw [hxs] at h
    exact (hk a s').after h.faults

theorem map {x : Op α} (hx : x.Accounted) (f : α → β) : (f <$> x).Accounted := by
  rw [map_eq_pure_bind]
  exact hx.bind fun a => .pure (f a)

theorem foldlM {f : β → α → Op β} {l : List α} (hf : ∀ a ∈ l, ∀ b, (f b a).Accounted) (b : β) :
    (l.foldlM f b).Accounted := by
  induction l generalizing b with
  | nil => exact .pure b
  | cons a l ih =>
    rw [List.foldlM_cons]
    exact (hf a List.mem_cons_self b).bind (ih fun a' ha' => hf a' (List.mem_cons_of_mem a ha'))

end Op.Accounted

/-! ## Making and checking -/

theorem Making.accounted (m : Making) : m.run.Accounted := by
  intro s
  cases m.run_cases with
  | value p _ hrun => rw [hrun s]; exact .value rfl
  | noLiteral e hrun => rw [hrun s]; exact .value rfl
  | fault f hrun => rw [hrun s]; exact .of_fault rfl

namespace Guard

theorem accounted_forM (fault : Option Fault) : (fault.forM Op.raise : Op Unit).Accounted := by
  cases fault with
  | none => exact .pure ()
  | some f => exact .raise f

theorem accounted_check (x : Handle) (label : String) : (check x label).Accounted := accounted_forM (fault? x label)

theorem accounted_checkPointer (p : Pointer Handle) (label : String) : (checkPointer p label).Accounted := by
  cases p with
  | object x => exact (accounted_forM _).bind fun _ => (accounted_check x label).bind fun _ => .pure x
  | stray address words =>
    obtain ⟨f, hf⟩ := checkPointer_stray address words label
    exact hf ▸ .raise f

theorem accounted_checkArguments (args : List Handle) (expected : Nat) (label : String) :
    (checkArguments args expected label).Accounted := by
  unfold checkArguments
  split
  · exact .raise _
  · exact accounted_forM _

end Guard

/-! ## Modules -/

/-- Whatever has been filled in, the operation raises the fault that leaves it and no other. -/
def Startup.Accounted (x : Startup C α) : Prop :=
  ∀ c (s : Session), s.Ended (leaving (x (c, s)).1) (x (c, s)).1 (x (c, s)).2.2

theorem Startup.Accounted.lift {x : Op α} (hx : x.Accounted) : (monadLift x : Startup C α).Accounted :=
  fun _ s => hx s

theorem Startup.Accounted.bind {x : Startup C α} {k : α → Startup C β} (hx : x.Accounted) (hk : ∀ a, (k a).Accounted) :
    (x >>= k).Accounted := by
  intro c s
  have h := hx c s
  rw [Startup.bind_apply]
  rcases hxs : x (c, s) with ⟨f | a, c', s'⟩
  · rw [hxs] at h
    exact h.stop
  · rw [hxs] at h
    exact (hk a c' s').after h.faults

theorem Startup.Accounted.runFrom {x : Startup C α} (hx : x.Accounted) (c : C) : (x.runFrom c).Accounted := by
  intro s
  have h := hx c s
  unfold Startup.runFrom ExceptT.mk
  dsimp only
  rcases hxs : x (c, s) with ⟨f | a, c', s'⟩
  · rw [hxs] at h
    exact h.stop
  · rw [hxs] at h
    exact .value h.faults

/-- The callbacks of a module, by which a boot may end. -/
structure Initializer.Accounted (i : Initializer C) : Prop where
  register : i.register.Accounted
  query : ∀ c, (i.query c).Accounted

namespace Chain

theorem accounted_registerAll {is : List (Initializer C)} (h : ∀ i ∈ is, i.register.Accounted) :
    (registerAll is).Accounted := by
  induction is with
  | nil => exact fun _ _ => .value rfl
  | cons i is ih =>
    have hrest := ih fun j hj => h j (List.mem_cons_of_mem i hj)
    exact ((Startup.Accounted.lift (.emit (registeringRecord i.name))).bind fun _ => h i List.mem_cons_self).bind
      fun _ => hrest

theorem accounted_queryPass {is : List (Initializer C)} {context : C} (h : ∀ i ∈ is, (i.query context).Accounted) :
    (queryPass is context).Accounted := by
  refine Op.Accounted.foldlM (fun i hi report => (h i hi).bind fun verdict => ?_) _
  cases verdict with
  | ok _ => exact .pure _
  | error complaint => exact (Op.Accounted.emit _).bind fun _ => .pure _

theorem accounted_run {c : Chain C} (h : ∀ i ∈ c.walk, i.Accounted) : c.run.Accounted := by
  intro context s
  have hregister := accounted_registerAll (fun i hi => (h i hi).register) context s
  rw [run_apply]
  rcases hreg : registerAll c.walk (context, s) with ⟨f | _, context', s'⟩
  · rw [hreg] at hregister
    exact hregister.stop
  · rw [hreg] at hregister
    exact (accounted_queryPass (fun i hi => (h i hi).query context') s').after hregister.faults

end Chain

theorem Roster.accounted_register (m : Roster) : m.module.register.Accounted := by
  intro r s
  have halike : s.Alike (m.module.register (r, s)).2.2 := Registry.alike_registerEach m.registrations r s
  obtain ⟨s', hrun⟩ := Registry.registerEach_apply m.registrations r s
  have hrun : m.module.register (r, s) = (.ok (), r.insertAll m.registrations, s') := hrun
  rw [hrun] at halike ⊢
  exact .value halike.1.symm

theorem Builtin.accounted {m : Module} (hm : m ∈ Builtin.modules) : m.Accounted where
  register := by
    obtain ⟨roster, -, rfl⟩ := Builtin.exists_roster hm
    exact roster.accounted_register
  query r := by
    simp only [Builtin.modules, List.mem_cons, List.not_mem_nil, or_false] at hm
    rcases hm with rfl | rfl <;> exact .pure _

theorem Runtime.accounted_boot {extensions extra : List Module} (h : ∀ m ∈ extensions ++ extra, m.Accounted) :
    (boot extensions extra).Accounted := by
  intro s
  have hlinked : ∀ m ∈ (Boot.linkOrder extensions extra).reverse ++ [], m.Accounted := by
    intro m hm
    rw [List.append_nil, List.mem_reverse, mem_linkOrder] at hm
    exact hm.elim Builtin.accounted (h m)
  -- Linking gives the same chain in every session and writes to the log only.
  have hcount : (Boot.linkModules extensions extra s).2.faults = s.faults := (Chain.alike_linkAll _ _ s).1.symm
  have hlink := Chain.linkAll_apply (Boot.linkOrder extensions extra) Chain.empty s
  rw [boot, Op.bind_apply, Boot.linkModules, hlink]
  refine Session.Ended.of_faults_eq hcount ?_
  refine (Op.Accounted.emit _).bind (fun _ => ?_) _
  refine ((Chain.accounted_run hlinked).runFrom Registry.empty).bind fun p => ?_
  exact (Op.Accounted.emit _).bind fun _ => .pure _

/-! ## Routines -/

/-- Whatever it is called on. -/
def Routine.Accounted (f : Routine) : Prop := ∀ args, (f args).Accounted

/-- Every routine of the table has the property. -/
def Registry.Routines (P : Routine → Prop) (r : Registry) : Prop :=
  ∀ name signature f, r.lookup name signature = some f → P f

/-- The module registers routines with the property only. -/
def Module.Keeps (P : Routine → Prop) (m : Module) : Prop :=
  ∀ (r : Registry) (s : Session), r.Routines P → (m.register (r, s)).2.1.Routines P

theorem Op.MakesLeaf.accounted {x : Op Handle} (h : x.MakesLeaf) : x.Accounted := by
  obtain ⟨o, ho, -⟩ := h
  intro s
  rw [ho s]
  cases o with
  | ok p => exact .value rfl
  | error f => exact .of_fault rfl

theorem Runtime.accounted_call {r : Runtime} {name : String} {signature : Signature} {args : List Handle}
    (h : ∀ f, r.registry.lookup name signature = some f → (f args).Accounted) :
    (r.call name signature args).Accounted := by
  unfold Runtime.call Registry.call
  cases hf : r.registry.lookup name signature with
  | none => exact .pure _
  | some f => exact (h f hf).map _

theorem Conversion.accounted_routine (c : Conversion) : Routine.Accounted c.routine :=
  fun args => (c.makesLeaf_routine args).accounted

theorem Rendering.accounted_routine : Routine.Accounted Rendering.routine :=
  fun args => (Rendering.makesLeaf_routine args).accounted

section Keeping

variable {P : Routine → Prop}

theorem Roster.keeps {m : Roster} (h : ∀ x ∈ m.registrations, P x.routine) : Module.Keeps P m.module := by
  intro r s hr name signature f hf
  obtain ⟨s', hrun⟩ := Registry.registerEach_apply m.registrations r s
  have hrun : m.module.register (r, s) = (.ok (), r.insertAll m.registrations, s') := hrun
  have hlookup := Registry.lookup_insertAll m.registrations ⟨name, signature⟩ r
  rw [hrun] at hf
  rcases Option.or_eq_some_iff.mp (hlookup.symm.trans hf) with hf | ⟨-, hf⟩
  · obtain ⟨before, after, heq, -⟩ := Registration.last?_eq_some_iff.mp hf
    exact h ⟨_, f⟩ (heq ▸ List.mem_append_right before List.mem_cons_self)
  · exact hr name signature f hf

theorem Chain.registerAll_keeps {walk : List Module} (h : ∀ m ∈ walk, m.Keeps P) (r : Registry) (s : Session)
    (hr : r.Routines P) : (registerAll walk (r, s)).2.1.Routines P := by
  induction walk generalizing r s with
  | nil => exact hr
  | cons m walk ih =>
    have hm := h m List.mem_cons_self r (s.write (registeringRecord m.name)) hr
    rw [registerAll_cons_apply]
    rcases hrun : m.register (r, s.write (registeringRecord m.name)) with ⟨f | _, r', s'⟩
    · rw [hrun] at hm
      exact hm
    · rw [hrun] at hm
      exact ih (fun n hn => h n (List.mem_cons_of_mem m hn)) r' s' hm

variable (hconversion : ∀ c ∈ Conversion.shipped, P c.routine) (hrendering : P Rendering.routine)

include hconversion hrendering

theorem Builtin.keeps {m : Module} (hm : m ∈ Builtin.modules) : m.Keeps P := by
  obtain ⟨roster, hroster, rfl⟩ := Builtin.exists_roster hm
  refine roster.keeps fun x hx => ?_
  rcases Builtin.registered hroster hx with ⟨c, hc, hroutine⟩ | hroutine
  · exact hroutine ▸ hconversion c hc
  · exact hroutine ▸ hrendering

theorem Runtime.boot_routines {extensions extra : List Module} (h : ∀ m ∈ extensions ++ extra, m.Keeps P)
    {s s' : Session} {r : Runtime} (hboot : boot extensions extra s = (.ok r, s')) : r.registry.Routines P := by
  have hlinked : ∀ m ∈ (Boot.linkOrder extensions extra).reverse, m.Keeps P := by
    intro m hm
    rw [List.mem_reverse, mem_linkOrder] at hm
    exact hm.elim (Builtin.keeps hconversion hrendering) (h m)
  obtain ⟨-, s₁, s₂, hregister, -⟩ := boot_ok hboot
  have hkept := Chain.registerAll_keeps hlinked Registry.empty (Boot.opened extensions extra s) nofun
  rwa [hregister] at hkept

end Keeping

end BoxedRuntime
