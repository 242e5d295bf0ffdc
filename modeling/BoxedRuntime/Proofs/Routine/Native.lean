/-
  BoxedRuntime.Proofs.Routine.Native — routines written against the runtime.

  A native routine gets its arguments by reference. It may look at them, make values, clone
  a reference or one that lies within an object, call other routines and catch their
  faults; in the end it gives one of the references that it has. It cannot make a handle
  up: names stand for references, and the only new ones are bound by these steps. So a call
  goes on with the run it is made in, one step after the other, and all that is said of the
  references of a run holds within native routines and of what they give.

  Main statements:
  - `Native.continues`: a native routine goes on with the run.
  - `Registry.call_continues`: so does a call by name, of shipped and native routines.
  - `History.identity_consistent`: the objects of a run are told apart by their origin.
-/
import BoxedRuntime.Proofs.Value.Cloning
import BoxedRuntime.Value.Equality

namespace BoxedRuntime

/-! ## Native routines -/

/-- What is left to do for a routine that has names for `n` references. -/
inductive Native : Nat → Type where
  | give {n : Nat} (i : Fin n) : Native n
  | fail {n : Nat} (f : Fault) : Native n
  /-- Go on by what is to be seen of an object. -/
  | look {n : Nat} (i : Fin n) (next : Handle → Native n) : Native n
  | clone {n : Nat} (i : Fin n) (next : Native (n + 1)) : Native n
  /-- Clone what stands at a place of a list or record. -/
  | item {n : Nat} (i : Fin n) (place : Nat) (next : Native (n + 1)) (missing : Native n) : Native n
  | make {n : Nat} (r : Recipe (Fin n)) (next : Native (n + 1)) (noLiteral : LiteralError → Native n) : Native n
  | call {m n : Nat} (body : Native m) (args : Fin m → Fin n) (next : Native (n + 1)) : Native n
  | attempt {n : Nat} (body : Native n) (next : Native (n + 1)) (caught : Fault → Native n) : Native n

namespace Native

/-- The last reference obtained has the first name. -/
def binding {α : Type} {n : Nat} (x : α) (names : Fin n → α) : Fin (n + 1) → α := Fin.cases x names

def run : {n : Nat} → Native n → (Fin n → Handle) → Op Handle
  | _, give i, handle => pure (handle i)
  | _, fail f, _ => Op.raise f
  | _, look i next, handle => (next (handle i)).run handle
  | _, clone i next, handle => next.run (binding (handle i) handle)
  | _, item i place next missing, handle =>
    match (handle i).payload.children[place]? with
    | some x => next.run (binding x handle)
    | none => missing.run handle
  | _, make r next noLiteral, handle => do
    match ← (r.making handle).run with
    | .ok x => next.run (binding x handle)
    | .error e => (noLiteral e).run handle
  | _, call body args next, handle => do
    let x ← body.run (handle ∘ args)
    next.run (binding x handle)
  | _, attempt body next caught, handle => do
    match ← Op.attempt (body.run handle) with
    | .ok x => next.run (binding x handle)
    | .error f => (caught f).run handle

/-- It may take any number of arguments. -/
def routine (body : (n : Nat) → Native n) : Routine := fun args => (body args.length).run args.get

end Native

/-! ## Going on with a run -/

/-- Some reference is to the object. -/
def Known (refs : List Reference) (x : Handle) : Prop := ∃ i, Refers refs i x

theorem Known.append {refs : List Reference} {x : Handle} (h : Known refs x) (more : List Reference) :
    Known (refs ++ more) x := by
  obtain ⟨i, hi⟩ := h
  exact ⟨i, hi.append⟩

theorem known_binding {refs : List Reference} {n : Nat} {x : Handle} {handle : Fin n → Handle} (hx : Known refs x)
    (h : ∀ a, Known refs (handle a)) (a : Fin (n + 1)) : Known refs (Native.binding x handle a) := by
  cases a using Fin.cases with
  | zero => exact hx
  | succ a => exact h a

/-- From any session of a run with these references, the operation takes the run further,
    and of what it gives this holds then. -/
def Op.Continues {α : Type} (refs : List Reference) (x : Op α) (given : List Reference → α → Prop) : Prop :=
  ∀ s, History s refs → ∃ more, History (x s).2 (refs ++ more) ∧ ∀ a, (x s).1 = .ok a → given (refs ++ more) a

namespace Op.Continues

variable {α β : Type} {refs : List Reference} {P : List Reference → α → Prop} {Q : List Reference → β → Prop}

theorem pure {a : α} (h : P refs a) : Continues refs (pure a) P := by
  intro s hs
  refine ⟨[], by rwa [List.append_nil], ?_⟩
  rintro _ ⟨⟩
  rwa [List.append_nil]

theorem raise (f : Fault) : Continues refs (Op.raise f) P := by
  intro s hs
  refine ⟨[], ?_, nofun⟩
  rw [List.append_nil]
  exact hs.other (Nat.le_refl s.nextId)

theorem bind {x : Op α} {k : α → Op β} (hx : Continues refs x P)
    (hk : ∀ more a, P (refs ++ more) a → Continues (refs ++ more) (k a) Q) : Continues refs (x >>= k) Q := by
  intro s hs
  obtain ⟨more, hmore, hgiven⟩ := hx s hs
  rw [Op.bind_apply]
  rcases hrun : x s with ⟨f | a, s'⟩
  · rw [hrun] at hmore
    exact ⟨more, hmore, nofun⟩
  · rw [hrun] at hmore hgiven
    obtain ⟨further, hfurther, hgiven'⟩ := hk more a (hgiven a rfl) s' hmore
    rw [List.append_assoc] at hfurther hgiven'
    exact ⟨more ++ further, hfurther, hgiven'⟩

theorem attempt {x : Op α} (hx : Continues refs x P) :
    Continues refs (Op.attempt x) fun refs r => ∀ a, r = .ok a → P refs a := by
  intro s hs
  obtain ⟨more, hmore, hgiven⟩ := hx s hs
  refine ⟨more, hmore, ?_⟩
  rintro r ⟨⟩
  exact hgiven

theorem make {ν : Type} (r : Recipe ν) {handle : ν → Handle} (h : ∀ a, Known refs (handle a)) :
    Continues refs (r.making handle).run fun refs r => ∀ x, r = .ok x → Known refs x := by
  intro s hs
  choose number hnumber using h
  have stay : History s (refs ++ []) := by rwa [List.append_nil]
  cases r.run_cases handle with
  | value p _ hrun =>
    have hmade := hs.made r hnumber (hrun s)
    rw [hrun s]
    refine ⟨_, hmade, ?_⟩
    rintro _ ⟨⟩ x ⟨⟩
    exact ⟨refs.length, .concat _⟩
  | noLiteral e hrun =>
    rw [hrun s]
    refine ⟨[], stay, ?_⟩
    rintro _ ⟨⟩ x ⟨⟩
  | fault f hrun =>
    rw [hrun s]
    exact ⟨[], stay.other (Nat.le_refl s.nextId), nofun⟩

end Op.Continues

/-- Before the rest, something known is cloned. -/
theorem Op.Continues.cloned {refs : List Reference} {x : Handle} {y : Op Handle} (hx : Known refs x)
    (hy : ∀ more, Continues (refs ++ more) y Known) : Continues refs y Known := by
  intro s hs
  obtain ⟨i, r, hr, rfl⟩ := hx
  obtain ⟨more, hmore, hgiven⟩ := hy _ s (hs.cloned hr)
  rw [List.append_assoc] at hmore hgiven
  exact ⟨_, hmore, hgiven⟩

theorem Native.continues {n : Nat} (b : Native n) : ∀ {refs : List Reference} {handle : Fin n → Handle},
    (∀ i, Known refs (handle i)) → (b.run handle).Continues refs Known := by
  induction b with
  | give i =>
    intro refs handle h
    exact .pure (h i)
  | fail f =>
    intro refs handle h
    exact .raise f
  | look i next ih =>
    intro refs handle h
    exact ih (handle i) h
  | clone i next ih =>
    intro refs handle h
    exact .cloned (h i) fun more => ih (known_binding ((h i).append more) fun a => (h a).append more)
  | item i place next missing ihnext ihmissing =>
    intro refs handle h
    rw [run]
    cases hx : (handle i).payload.children[place]? with
    | none => exact ihmissing h
    | some x =>
      -- What lies within an object that is known is known itself.
      intro s hs
      obtain ⟨k, hk⟩ := h i
      have hx : Known refs x := hs.provenance.child hk (List.mem_of_getElem? hx)
      exact Op.Continues.cloned hx
        (fun more => ihnext (known_binding (hx.append more) fun a => (h a).append more)) s hs
  | make r next noLiteral ihnext ihrefused =>
    intro refs handle h
    rw [run]
    refine (Op.Continues.make r h).bind fun more o ho => ?_
    cases o with
    | ok x => exact ihnext (known_binding (ho x rfl) fun a => (h a).append more)
    | error e => exact ihrefused e fun a => (h a).append more
  | call body args next ihbody ihnext =>
    intro refs handle h
    refine (ihbody fun a => h (args a)).bind fun more x hx => ?_
    exact ihnext (known_binding hx fun a => (h a).append more)
  | attempt body next caught ihbody ihnext ihcaught =>
    intro refs handle h
    rw [run]
    refine (ihbody h).attempt.bind fun more o ho => ?_
    cases o with
    | ok x => exact ihnext (known_binding (ho x rfl) fun a => (h a).append more)
    | error f => exact ihcaught f fun a => (h a).append more

/-! ## Calls by name -/

/-- A conversion of any row, the rendering, or native. -/
inductive Routine.Composed : Routine → Prop
  | conversion (c : Conversion) : Composed c.routine
  | rendering : Composed Rendering.routine
  | native (body : (n : Nat) → Native n) : Composed (Native.routine body)

namespace Op.Continues

variable {α β : Type} {refs : List Reference} {P : List Reference → α → Prop} {Q : List Reference → β → Prop}

theorem map {x : Op α} {g : α → β} (hx : Continues refs x P) (hg : ∀ refs a, P refs a → Q refs (g a)) :
    Continues refs (g <$> x) Q := by
  rw [map_eq_pure_bind]
  exact hx.bind fun more a ha => .pure (hg _ a ha)

theorem of_map {ε : Type} {x : Op α}
    (hx : Continues refs (Except.ok <$> x : Op (Except ε α)) fun refs r => ∀ a, r = .ok a → P refs a) :
    Continues refs x P := by
  intro s hs
  obtain ⟨more, hmore, hgiven⟩ := hx s hs
  rw [map_eq_pure_bind, Op.bind_apply] at hmore hgiven
  rcases hrun : x s with ⟨f | a, s'⟩
  · rw [hrun] at hmore
    exact ⟨more, hmore, nofun⟩
  · rw [hrun] at hmore hgiven
    refine ⟨more, hmore, ?_⟩
    rintro _ ⟨⟩
    exact hgiven _ rfl a rfl

end Op.Continues

theorem Routine.Composed.continues {f : Routine} (hf : f.Composed) {refs : List Reference} {args : List Handle}
    (h : ∀ x ∈ args, Known refs x) : (f args).Continues refs Known := by
  -- The arguments are named by their membership.
  have hnames : ∀ a : {x // x ∈ args}, Known refs a.1 := fun a => h a.1 a.2
  cases hf with
  | conversion c =>
    have hmade := Op.Continues.make (.convertRoutine c args.attach) hnames
    rw [Recipe.making, List.attach_map_subtype_val] at hmade
    exact hmade.of_map
  | rendering =>
    have hmade := Op.Continues.make (.renderRoutine args.attach) hnames
    rw [Recipe.making, List.attach_map_subtype_val] at hmade
    exact hmade.of_map
  | native body => exact (body args.length).continues fun i => h _ (List.get_mem args i)

theorem Registry.call_continues {r : Registry} (hr : ∀ name signature f, r.lookup name signature = some f → f.Composed)
    {refs : List Reference} {args : List Handle} (h : ∀ x ∈ args, Known refs x) (name : String) (signature : Signature) :
    (r.call name signature args).Continues refs fun refs o => ∀ x, o = .ok x → Known refs x := by
  unfold Registry.call
  cases hf : r.lookup name signature with
  | none => exact .pure nofun
  | some f =>
    refine ((hr name signature f hf).continues h).map ?_
    rintro refs x hx _ ⟨⟩
    exact hx

/-! ## Identity -/

theorem Conversion.toUnsignedInt_int {x : Handle} {n : Int64} (hx : x.Sound) (hn : x.payload = .int n) :
    (toUnsignedInt.routine [x]).Settles (.ok (.int n)) := by
  have hconverted : toUnsignedInt.converted x = .ok (.int n) := by
    have htag : x.tag = .int := by rw [hx.2, hn]; rfl
    rw [converted, Guard.fault?_eq_none_iff.mpr hx]
    simp [toUnsignedInt, integral, htag, Handle.scalar?, hn, Payload.scalar?, Precondition.holds, Boxing.packed]
  exact Guard.argument_settles hx (hconverted ▸ toUnsignedInt.apply_settles x)

theorem Rendering.string_settles {x : Handle} {t : String} (hx : x.Sound) (ht : x.payload = .string t) :
    (routine [x]).Settles (.ok (.string t)) := by
  refine Guard.argument_settles hx ?_
  rw [ht]
  exact Op.settles_box (.string t)

/-- Which handles of a run are to one object, and which are not. -/
structure IdentityConsistent (s : Session) (refs : List Reference) : Prop where
  common_origin : ∀ {i j x y}, Refers refs i x → Refers refs j y →
    (x.sameObject y = true ↔ ∃ k, Descends refs i k ∧ Descends refs j k)
  equivalence : Equivalence fun x y : {x // Known refs x} => x.1.sameObject y.1 = true
  one_value : ∀ {x y}, Known refs x → Known refs y → x.sameObject y = true →
    x.magic = y.magic ∧ x.tag = y.tag ∧ x.payload = y.payload
  within : ∀ {x y}, Known refs x → x.Reaches y → Known refs y
  /-- Whatever it is made of, it is none of the objects there are, be it deep within one. -/
  fresh : ∀ {m x s'}, Making.run m s = (.ok (.ok x), s') → ∀ {y z}, Known refs y → y.Reaches z → z.sameObject x = false
  int_again : ∀ {x n}, Known refs x → x.payload = .int n →
    ∃ y s', Conversion.toUnsignedInt.routine [x] s = (.ok y, s') ∧ y.equal x = true ∧ y.sameObject x = false
  string_again : ∀ {x t}, Known refs x → x.payload = .string t →
    ∃ y s', Rendering.routine [x] s = (.ok y, s') ∧ y.equal x = true ∧ y.sameObject x = false
  calls : ∀ {r : Registry}, (∀ name signature f, r.lookup name signature = some f → f.Composed) →
    ∀ {args : List Handle}, (∀ x ∈ args, Known refs x) → ∀ name signature,
      ∃ more, History (r.call name signature args s).2 (refs ++ more) ∧
        ∀ x, (r.call name signature args s).1 = .ok (.ok x) → Known (refs ++ more) x

/-- An equal object, and another one. -/
theorem Provenance.copied {s : Session} {refs : List Reference} (h : Provenance s refs) {x : Handle}
    (hx : Known refs x) (hself : x.payload.equal x.payload = true) {make : Op Handle}
    (hmake : make.Settles (.ok x.payload)) :
    ∃ y s', make s = (.ok y, s') ∧ y.equal x = true ∧ y.sameObject x = false := by
  obtain ⟨i, r, hr, rfl⟩ := hx
  refine ⟨_, _, hmake s, Handle.equal_of_payload rfl hself, ?_⟩
  exact beq_false_of_ne (Nat.ne_of_gt (h.below hr))

/-- Two handles are to one object exactly if their references go back to a common one by
    cloning, within native routines and within values, too. -/
theorem History.identity_consistent {s : Session} {refs : List Reference} (h : History s refs) :
    IdentityConsistent s refs := by
  have hrefs : Provenance s refs := h.provenance
  have sound : ∀ {x}, Known refs x → x.Sound := by
    rintro x ⟨i, r, hr, rfl⟩
    exact hrefs.sound hr
  have within : ∀ {x y : Handle}, Known refs x → x.Reaches y → Known refs y := by
    rintro x y ⟨i, hi⟩ hxy
    exact hrefs.reached hxy hi
  constructor
  case common_origin => exact hrefs.sameObject_iff
  case equivalence =>
    refine ⟨fun x => beq_self_eq_true _, fun hxy => ?_, fun hxy hyz => ?_⟩
    · exact beq_iff_eq.mpr (eq_of_beq hxy).symm
    · exact beq_iff_eq.mpr ((eq_of_beq hxy).trans (eq_of_beq hyz))
  case one_value =>
    rintro x y ⟨i, hi⟩ ⟨j, hj⟩ hxy
    rw [hrefs.eq_of_sameObject hi hj hxy]
    exact ⟨rfl, rfl, rfl⟩
  case within => exact within
  case fresh =>
    intro m x s' hrun y z hy hyz
    obtain ⟨k, hk⟩ := within hy hyz
    exact hrefs.fresh hrun hk
  case int_again =>
    intro x n hx hn
    have hmake : (Conversion.toUnsignedInt.routine [x]).Settles (.ok x.payload) :=
      hn ▸ Conversion.toUnsignedInt_int (sound hx) hn
    exact hrefs.copied hx (by simp [hn, Payload.equal]) hmake
  case string_again =>
    intro x t hx ht
    have hmake : (Rendering.routine [x]).Settles (.ok x.payload) := ht ▸ Rendering.string_settles (sound hx) ht
    exact hrefs.copied hx (by simp [ht, Payload.equal]) hmake
  case calls =>
    intro r hr args hargs name signature
    obtain ⟨more, hmore, hgiven⟩ := Registry.call_continues hr hargs name signature s h
    exact ⟨more, hmore, fun x hx => hgiven _ hx x rfl⟩

/-- It takes the first item out of a list. -/
def Native.first : (n : Nat) → Native n
  | 1 => .item 0 0 (.give 0) (.fail (.internal "first" "no item"))
  | n => .fail (.internal "first" s!"takes no {n} arguments")

/-- A clone put into a list, and taken out of it again by a native routine, is still to the
    object that it was cloned from. The conversion of an integer to an integer is not. -/
theorem first_item_shared :
    let seven : Handle := ⟨0, liveMagic, .int, .int 7⟩
    let list : Handle := ⟨1, liveMagic, .list, .list [seven]⟩
    let other : Handle := ⟨2, liveMagic, .int, .int 7⟩
    let refs : List Reference := [⟨seven, none, []⟩, ⟨seven, some 0, []⟩, ⟨list, none, [1]⟩, ⟨other, none, []⟩]
    let s : Session := { nextId := 3 }
    let r : Registry := Registry.empty.insert "first" ⟨"[^a,v,l]"⟩ (Native.routine Native.first)
    History s refs ∧ (∃ k, Descends refs 0 k ∧ Descends refs 1 k) ∧
      (other.equal seven = true ∧ ¬ ∃ k, Descends refs 3 k ∧ Descends refs 0 k) ∧
      ∃ more i, History (r.call "first" ⟨"[^a,v,l]"⟩ [list] s).2 (refs ++ more) ∧ Refers (refs ++ more) i seven ∧
        ∃ k, Descends (refs ++ more) i k ∧ Descends (refs ++ more) 0 k := by
  intro seven list other refs s r
  have made : History { nextId := 1 } [⟨seven, none, []⟩] :=
    .made (.leaf (.int 7) rfl) (.start {}) (nofun : ∀ a : Empty, Refers [] a.elim a.elim) rfl
  have cloned : History { nextId := 1 } [⟨seven, none, []⟩, ⟨seven, some 0, []⟩] := .cloned made (i := 0) rfl
  have clone : ∀ more, ∀ _ : Unit, Refers ([⟨seven, none, []⟩, ⟨seven, some 0, []⟩] ++ more) 1 seven :=
    fun _ _ => ⟨_, rfl, rfl⟩
  have listed : History { nextId := 2 } [⟨seven, none, []⟩, ⟨seven, some 0, []⟩, ⟨list, none, [1]⟩] :=
    .made (.list [()]) cloned (clone []) rfl
  have h : History s refs := .made (.convertRoutine .toUnsignedInt [()]) listed (clone [_]) rfl
  have first : Refers refs 0 seven := ⟨_, rfl, rfl⟩
  have consistent := h.identity_consistent
  have hr : ∀ name signature f, r.lookup name signature = some f → f.Composed := by
    intro name signature f hf
    let key : RoutineKey := ⟨"first", ⟨"[^a,v,l]"⟩⟩
    replace hf := (Table.find?_insert key ⟨name, signature⟩ (Native.routine Native.first) .empty).symm.trans hf
    split at hf
    · cases hf
      exact .native Native.first
    · cases hf
  have hlist : ∀ x ∈ [list], Known refs x := by
    intro x hx
    rw [List.mem_singleton.mp hx]
    exact ⟨2, _, rfl, rfl⟩
  refine ⟨h, ?_, ⟨rfl, ?_⟩, ?_⟩
  · exact (consistent.common_origin first ⟨_, rfl, rfl⟩).mp rfl
  · rw [← consistent.common_origin (x := other) (y := seven) ⟨_, rfl, rfl⟩ first]
    decide
  · obtain ⟨more, hmore, hgiven⟩ := consistent.calls hr hlist "first" ⟨"[^a,v,l]"⟩
    obtain ⟨i, hi⟩ := hgiven seven rfl
    exact ⟨more, i, hmore, hi, (hmore.identity_consistent.common_origin hi first.append).mp rfl⟩

end BoxedRuntime
