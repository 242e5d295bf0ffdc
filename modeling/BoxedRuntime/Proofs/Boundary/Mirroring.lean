/-
  BoxedRuntime.Proofs.Boundary.Mirroring — one call, through pointers and without.

  A call through pointers resolves what it was passed, does the plain call and keeps the
  books: it hands over a reference to the object that it gives and takes back the one that
  is released. `Mirrors` says that a call does this to one boundary, and is proved of a
  call piece by piece.

  Main statements:
  - `Request.rename_eq_ok`, `Request.rename_object?`, `Request.rename_released?`: what
    renaming a request keeps.
  - `Request.enter_mirrors`: every call mirrors its plain call, if each object that it is
    passed is found at the object's address.
-/
import BoxedRuntime.Proofs.Boundary.Plain

namespace BoxedRuntime

variable {α β γ σ : Type}

/-! ## Renaming -/

def Pointer.map (f : α → β) : Pointer α → Pointer β
  | stray address words => .stray address words
  | object a => .object (f a)

def Request.map (f : α → β) : Request α → Request β
  | boxNull => .boxNull
  | boxBool b => .boxBool b
  | boxInt n => .boxInt n
  | boxByte raw => .boxByte raw
  | boxChar raw => .boxChar raw
  | tagOf p => .tagOf (p.map f)
  | unboxScalar p => .unboxScalar (p.map f)
  | release p => .release (p.map f)
  | call name signature arg => .call name signature (arg.map f)

def Reply.map (f : α → β) : Reply α → Reply β
  | handle a => .handle (f a)
  | tag raw => .tag raw
  | word n => .word n
  | done => .done

theorem Reply.handle?_map (f : α → β) (r : Reply α) : (r.map f).handle? = r.handle?.map f := by cases r <;> rfl

theorem map_eq_ok {ε : Type} {f : α → β} {x : Except ε α} {b : β} (h : x.map f = .ok b) :
    ∃ a, x = .ok a ∧ f a = b := by
  cases x with
  | error _ => cases h
  | ok a => cases h; exact ⟨a, rfl, rfl⟩

theorem Pointer.rename_object_eq_ok {f : α → Option β} {a : α} {q : Pointer β} (h : (object a).rename f = .ok q) :
    ∃ b, f a = some b ∧ q = .object b := by
  simp only [Pointer.rename] at h
  cases hf : f a with
  | none => rw [hf] at h; cases h
  | some b => rw [hf] at h; cases h; exact ⟨b, rfl, rfl⟩

theorem Pointer.rename_eq_ok {f : α → Option β} {p : Pointer α} {q : Pointer β} (h : p.rename f = .ok q)
    {g : α → Option γ} {k : β → γ} (hg : ∀ a b, f a = some b → g a = some (k b)) : p.rename g = .ok (q.map k) := by
  cases p with
  | object a =>
    obtain ⟨b, hf, rfl⟩ := Pointer.rename_object_eq_ok h
    simp only [Pointer.rename, hg a b hf, Pointer.map]
  | _ => cases h; rfl

namespace Request

variable {f : α → Option β} {q : Request α} {x : Request β}

/-- What has a name in two ways can be renamed in either way. -/
theorem rename_eq_ok (h : q.rename f = .ok x) {g : α → Option γ} {k : β → γ}
    (hg : ∀ a b, f a = some b → g a = some (k b)) : q.rename g = .ok (x.map k) := by
  cases q with
  | tagOf p | unboxScalar p | release p | call _ _ p =>
    obtain ⟨y, hy, rfl⟩ := map_eq_ok h
    simp only [rename, Pointer.rename_eq_ok hy hg]
    rfl
  | _ => cases h; rfl

theorem rename_object? (h : q.rename f = .ok x) {b : β} (hb : x.object? = some b) : ∃ a, f a = some b := by
  cases q with
  | tagOf p | unboxScalar p | release p | call _ _ p =>
    obtain ⟨y, hy, rfl⟩ := map_eq_ok h
    cases p with
    | object a =>
      obtain ⟨b', hf, rfl⟩ := Pointer.rename_object_eq_ok hy
      cases hb
      exact ⟨a, hf⟩
    | _ => cases hy; cases hb
  | _ => cases h; cases hb

theorem rename_released? (h : q.rename f = .ok x) :
    (q.released? = none ∧ x.released? = none) ∨
      ∃ a b, q.released? = some a ∧ f a = some b ∧ x = .release (.object b) := by
  cases q with
  | release p =>
    obtain ⟨y, hy, rfl⟩ := map_eq_ok h
    cases p with
    | object a =>
      obtain ⟨b, hf, rfl⟩ := Pointer.rename_object_eq_ok hy
      exact Or.inr ⟨a, b, rfl, hf, rfl⟩
    | _ => cases hy; exact Or.inl ⟨rfl, rfl⟩
  | tagOf | unboxScalar | call => obtain ⟨y, -, rfl⟩ := map_eq_ok h; exact Or.inl ⟨rfl, rfl⟩
  | _ => cases h; exact Or.inl ⟨rfl, rfl⟩

end Request

/-! ## Calls through pointers -/

namespace Entry

theorem bind_apply (x : Entry α) (k : α → Entry β) (p : Boundary × Session) :
    (x >>= k) p = match x p with
      | (.ok a, p') => k a p'
      | (.error e, p') => (.error e, p') := by
  show (ExceptT.bind x k) p = _
  simp only [ExceptT.bind, ExceptT.mk, bind, StateT.bind]
  rcases x p with ⟨_ | _, _⟩ <;> rfl

/-- With this boundary the call does what the plain operation does, and makes of its value
    another one and a new boundary. A fault leaves the boundary alone. -/
def Mirrors (x : Entry β) (b : Boundary) (o : Op α) (out : α → β × Boundary) : Prop :=
  ∀ s, x (b, s) = match o s with
    | (.ok a, s') => (.ok (out a).1, (out a).2, s')
    | (.error f, s') => (.error (.fault f), b, s')

namespace Mirrors

variable {b : Boundary}

theorem pure {a : α} {y : β} {out : α → β × Boundary} (h : out a = (y, b)) :
    Mirrors (Pure.pure y) b (Pure.pure a) out := by
  intro s
  show (Except.ok y, b, s) = (Except.ok (out a).1, (out a).2, s)
  rw [h]

theorem lift (o : Op α) : Mirrors (liftM o) b o fun a => (a, b) := by
  intro s
  show (match o s with | (.ok a, s') => _ | (.error f, s') => _) = _
  rcases o s with ⟨_ | _, _⟩ <;> rfl

theorem boundary {k : Boundary → Entry β} {o : Op α} {out : α → β × Boundary} (h : Mirrors (k b) b o out) :
    Mirrors (Entry.boundary >>= k) b o out := by
  intro s
  rw [Entry.bind_apply]
  exact h s

/-- A step that leaves the boundary alone, and what comes after it. -/
theorem bind {x : Entry α} {k : α → Entry β} {o : Op α} {g : α → Op σ} {out : σ → β × Boundary}
    (hx : Mirrors x b o fun a => (a, b)) (hk : ∀ a, Mirrors (k a) b (g a) out) :
    Mirrors (x >>= k) b (o >>= g) out := by
  intro s
  rw [Entry.bind_apply, Op.bind_apply, hx s]
  rcases o s with ⟨f | a, s'⟩
  · rfl
  · exact hk a s'

theorem map {x : Entry γ} {f : γ → β} {o : Op α} {g : α → σ} {out : α → γ × Boundary} {out' : σ → β × Boundary}
    (hx : Mirrors x b o out) (h : ∀ a, out' (g a) = (f (out a).1, (out a).2)) :
    Mirrors (f <$> x) b (g <$> o) out' := by
  intro s
  rw [map_eq_pure_bind, map_eq_pure_bind, Entry.bind_apply, Op.bind_apply, hx s]
  rcases o s with ⟨e | a, s'⟩
  · rfl
  · show (Except.ok (f (out a).1), (out a).2, s') = (Except.ok (out' (g a)).1, (out' (g a)).2, s')
    rw [h a]

/-- What an operation makes is handed over. -/
theorem give (o : Op Handle) : Mirrors (liftM o >>= Entry.give) b o fun x => (x.id, b.own x) := by
  intro s
  rw [Entry.bind_apply, lift o s]
  rcases o s with ⟨_ | _, _⟩ <;> rfl

end Mirrors

/-- The object is at the address that stands for it. -/
theorem resolve_mirrors {b : Boundary} {p : Pointer Handle} (hp : ∀ x, p = .object x → b.find? x.id = some x) :
    Mirrors (resolve (p.map Handle.id)) b (Pure.pure p) fun p => (p, b) := by
  intro s
  cases p with
  | object x =>
    simp only [Pointer.map, resolve, Entry.bind_apply, boundary, ExceptT.mk, hp x rfl]
    rfl
  | _ => rfl

theorem checked_mirrors {b : Boundary} {p : Pointer Handle} (hp : ∀ x, p = .object x → b.find? x.id = some x)
    (label : String) : Mirrors (checked (p.map Handle.id) label) b (Guard.checkPointer p label) fun x => (x, b) := by
  have := (resolve_mirrors hp).bind fun q => Mirrors.lift (Guard.checkPointer q label)
  rwa [pure_bind] at this

end Entry

namespace Boundary

/-- Some reference to the object is taken back, if there is an object. -/
def without (b : Boundary) : Option Handle → Boundary
  | some x => b.disown x.id
  | none => b

def adding (b : Boundary) : Option Handle → Boundary
  | some y => b.own y
  | none => b

/-- After the call: without the reference taken back, with the one handed over. -/
def after (b : Boundary) (q : Request Handle) (r : Reply Handle) : Boundary := (b.without q.released?).adding r.handle?

@[simp] theorem installed_without (b : Boundary) (o : Option Handle) : (b.without o).installed = b.installed := by
  cases o <;> rfl

@[simp] theorem owned_adding (b : Boundary) (o : Option Handle) : (b.adding o).owned = o.toList ++ b.owned := by
  cases o <;> rfl

@[simp] theorem installed_after (b : Boundary) (q : Request Handle) (r : Reply Handle) :
    (b.after q r).installed = b.installed := by
  unfold after
  cases r.handle? <;> exact installed_without b q.released?

end Boundary

namespace Request

open Entry

variable {runtime : Runtime} {b : Boundary}

theorem call_mirrors (hi : b.installed = some runtime) (name signature : ForeignText) {p : Pointer Handle}
    (hp : ∀ x, p = .object x → b.find? x.id = some x) :
    Mirrors (.handle <$> Entry.call name signature (p.map Handle.id)) b ((call name signature p).perform runtime)
      fun r => (r.map Handle.id, b.after (call name signature p) r) := by
  simp only [Entry.call, perform, map_bind]
  refine (Mirrors.lift _).bind fun name => (Mirrors.lift _).bind fun signature => ?_
  refine (checked_mirrors hp name).bind fun x => Mirrors.boundary ?_
  simp only [hi, map_bind]
  refine (Mirrors.lift _).bind fun r => ?_
  cases r with
  | ok y => exact fun _ => rfl
  | error e => exact fun _ => rfl

theorem release_mirrors {p : Pointer Handle} (hp : ∀ x, p = .object x → b.find? x.id = some x) :
    Mirrors (release (p.map Handle.id)).enter b ((release p).perform runtime)
      fun r => (r.map Handle.id, b.after (release p) r) := by
  intro s
  -- Which reference is taken back is read off the pointer, so the guard's answer alone does
  -- not decide and `Mirrors.bind` does not apply.
  simp only [enter, Entry.release, perform, Entry.bind_apply, Op.bind_apply, checked_mirrors hp "brisk_release" s]
  cases p with
  | object x =>
    simp only [Guard.checkPointer_object]
    cases Guard.fault? x "brisk_release" <;> rfl
  | stray address words =>
    obtain ⟨f, hf⟩ := Guard.checkPointer_stray address words "brisk_release"
    simp only [hf]
    rfl

theorem enter_mirrors (hi : b.installed = some runtime) (q : Request Handle)
    (hq : ∀ x, q.object? = some x → b.find? x.id = some x) :
    Mirrors (q.map Handle.id).enter b (q.perform runtime) fun r => (r.map Handle.id, b.after q r) := by
  cases q with
  | boxNull | boxBool | boxInt | boxByte | boxChar => exact (Mirrors.give _).map fun x => rfl
  | tagOf p =>
    simp only [Request.map, enter, Entry.tagOf, map_bind, map_pure]
    exact (checked_mirrors (p := p) (fun x hx => hq x (hx ▸ rfl)) _).bind fun x => .pure rfl
  | unboxScalar p =>
    simp only [Request.map, enter, Entry.unboxScalar, map_bind]
    refine (checked_mirrors (p := p) (fun x hx => hq x (hx ▸ rfl)) _).bind fun x => ?_
    cases x.scalar? with
    | some raw => exact .pure rfl
    | none => exact fun _ => rfl
  | release p => exact release_mirrors fun x hx => hq x (hx ▸ rfl)
  | call name signature p => exact call_mirrors hi name signature fun x hx => hq x (hx ▸ rfl)

end Request
end BoxedRuntime
