/-
  BoxedRuntime.Proofs.Startup.Registration — lists of registrations.

  A registration is one call of `register`. Registering a list of them fills the registry
  by one insertion after the other, whatever is logged on the way; `last?` reads the
  outcome off the list.

  Main statements:
  - `register_apply`: one registration inserts, is logged, and never fails.
  - `lookup_insert`: an insertion settles its own key and no other.
  - `lookup_insertAll`: after a list of registrations a key resolves to the last one of
    it, and to what it was before if there is none.
  - `insertAll_comm`: lists of registrations that have no key in common commute.
  - `registerEach_apply`: the callback that registers a list does just these insertions.
-/
import BoxedRuntime.Registry

namespace BoxedRuntime

structure Registration where
  key : RoutineKey
  routine : Routine

namespace Registration

/-- The routine that the last registration of the key gives it. -/
def last? (k : RoutineKey) : List Registration → Option Routine
  | [] => none
  | x :: rest => (last? k rest).or (if x.key = k then some x.routine else none)

theorem last?_eq_none_iff {k : RoutineKey} {rs : List Registration} :
    last? k rs = none ↔ ∀ x ∈ rs, x.key ≠ k := by
  induction rs with
  | nil => simp [last?]
  | cons x rest ih => simp [last?, ih, and_comm]

theorem last?_eq_some_iff {k : RoutineKey} {f : Routine} {rs : List Registration} :
    last? k rs = some f ↔ ∃ before after, rs = before ++ ⟨k, f⟩ :: after ∧ ∀ x ∈ after, x.key ≠ k := by
  induction rs with
  | nil => simp [last?]
  | cons x rest ih =>
    rw [last?, Option.or_eq_some_iff, ih]
    constructor
    · intro h
      rcases h with ⟨before, after, rfl, ha⟩ | ⟨hn, hx⟩
      · exact ⟨x :: before, after, rfl, ha⟩
      · obtain ⟨hk, hf⟩ : x.key = k ∧ x.routine = f := by simpa using hx
        refine ⟨[], rest, ?_, last?_eq_none_iff.mp hn⟩
        cases x; cases hk; cases hf; rfl
    · intro ⟨before, after, he, ha⟩
      cases before with
      | nil =>
        cases he
        exact Or.inr ⟨last?_eq_none_iff.mpr ha, by simp⟩
      | cons y before =>
        cases he
        exact Or.inl ⟨before, after, rfl, ha⟩

end Registration

namespace Registry

/-! ## One registration -/

theorem lookup_insert (r : Registry) (k k' : RoutineKey) (f : Routine) :
    (r.insert k.name k.signature f).lookup k'.name k'.signature =
      if k' = k then some f else r.lookup k'.name k'.signature :=
  Table.find?_insert k k' f r.table

theorem register_apply (name : String) (signature : Signature) (f : Routine) (r : Registry) (s : Session) :
    register name signature f (r, s) =
      (.ok (), r.insert name signature f,
        if r.contains name signature then
          (s.write (registrationRecord name signature)).write (replacementRecord name signature)
        else s.write (registrationRecord name signature)) := by
  unfold register
  simp only [Startup.bind_apply, Startup.emit_apply, Startup.reading, ExceptT.mk, Op.pure_apply,
    Startup.update_apply]
  cases r.contains name signature <;> rfl

/-! ## Many registrations -/

def insertAll (r : Registry) (rs : List Registration) : Registry :=
  rs.foldl (fun r x => r.insert x.key.name x.key.signature x.routine) r

theorem lookup_insertAll (rs : List Registration) (k : RoutineKey) : ∀ r : Registry,
    (r.insertAll rs).lookup k.name k.signature = (Registration.last? k rs).or (r.lookup k.name k.signature) := by
  induction rs with
  | nil => intro r; rfl
  | cons x rest ih =>
    intro r
    show ((r.insert x.key.name x.key.signature x.routine).insertAll rest).lookup k.name k.signature = _
    rw [ih, lookup_insert, Registration.last?, Option.or_assoc]
    by_cases h : x.key = k
    · simp [h]
    · simp [h, Ne.symm h]

theorem insert_comm {x y : Registration} (h : x.key ≠ y.key) (r : Registry) :
    (r.insert x.key.name x.key.signature x.routine).insert y.key.name y.key.signature y.routine =
      (r.insert y.key.name y.key.signature y.routine).insert x.key.name x.key.signature x.routine :=
  congrArg Registry.mk (Table.insert_comm h.symm y.routine x.routine r.table)

theorem insertAll_insert_comm {x : Registration} {rs : List Registration} (h : ∀ y ∈ rs, x.key ≠ y.key) :
    ∀ r : Registry, (r.insert x.key.name x.key.signature x.routine).insertAll rs =
      (r.insertAll rs).insert x.key.name x.key.signature x.routine := by
  induction rs with
  | nil => intro r; rfl
  | cons y rest ih =>
    intro r
    have hrest := ih fun z hz => h z (List.mem_cons_of_mem y hz)
    calc (r.insert x.key.name x.key.signature x.routine).insertAll (y :: rest)
        = ((r.insert y.key.name y.key.signature y.routine).insert x.key.name x.key.signature x.routine).insertAll
            rest := congrArg (insertAll · rest) (insert_comm (h y List.mem_cons_self) r)
      _ = (r.insertAll (y :: rest)).insert x.key.name x.key.signature x.routine := hrest _

theorem insertAll_comm {rs ts : List Registration} (h : ∀ x ∈ rs, ∀ y ∈ ts, x.key ≠ y.key) :
    ∀ r : Registry, (r.insertAll rs).insertAll ts = (r.insertAll ts).insertAll rs := by
  induction rs with
  | nil => intro r; rfl
  | cons x rest ih =>
    intro r
    have hrest := ih fun z hz => h z (List.mem_cons_of_mem x hz)
    calc (r.insertAll (x :: rest)).insertAll ts
        = ((r.insert x.key.name x.key.signature x.routine).insertAll ts).insertAll rest := hrest _
      _ = (r.insertAll ts).insertAll (x :: rest) :=
        congrArg (insertAll · rest) (insertAll_insert_comm (h x List.mem_cons_self) r)

/-- The register callback that makes these registrations, in this order. -/
def registerEach (rs : List Registration) : Startup Registry Unit :=
  rs.forM fun x => register x.key.name x.key.signature x.routine

theorem registerEach_apply (rs : List Registration) : ∀ (r : Registry) (s : Session),
    ∃ s', registerEach rs (r, s) = (.ok (), r.insertAll rs, s') := by
  induction rs with
  | nil => intro r s; exact ⟨s, rfl⟩
  | cons x rest ih =>
    intro r s
    have hx := register_apply x.key.name x.key.signature x.routine r s
    obtain ⟨s', hs'⟩ := ih (r.insert x.key.name x.key.signature x.routine) _
    refine ⟨s', ?_⟩
    show (register x.key.name x.key.signature x.routine >>= fun _ => registerEach rest) (r, s) = _
    rw [Startup.bind_apply, hx]
    exact hs'

end Registry
end BoxedRuntime
