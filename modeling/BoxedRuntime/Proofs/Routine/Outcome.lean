/-
  BoxedRuntime.Proofs.Routine.Outcome — what an operation comes to.

  Most operations on values do one of two things to a session: they make one object, or
  they raise one fault. Which of the two, with which payload or fault, does not depend on
  the session, so such an operation is known by its outcome.

  Main statements:
  - `Boxing.scalar_settles`: the outcome of making a scalar.
  - `Conversion.apply_settles`: the outcome of a conversion, stage by stage.
  - `Guard.argument_cases`: the one argument, or an internal fault of the routine.
-/
import BoxedRuntime.Conversion

namespace BoxedRuntime

/-- A session after one object was made or one fault raised in it, and what came of it. -/
def Session.settled (s : Session) : Except Fault Payload → Except Fault Handle × Session
  | .ok p => (.ok ⟨s.nextId, liveMagic, p.tag, p⟩, { s with nextId := s.nextId + 1 })
  | .error f => (.error f, s.raised f)

theorem Session.settled_error_iff {s : Session} {o : Except Fault Payload} {f : Fault} :
    (s.settled o).1 = .error f ↔ o = .error f := by
  cases o <;> simp [settled]

theorem Session.settled_ok {s : Session} {o : Except Fault Payload} {y : Handle} (h : (s.settled o).1 = .ok y) :
    o = .ok y.payload ∧ y.Sound := by
  cases o with
  | error f => cases h
  | ok p => cases h; exact ⟨rfl, rfl, rfl⟩

/-- In every session the operation comes to the same. -/
def Op.Settles (x : Op Handle) (o : Except Fault Payload) : Prop := ∀ s, x s = s.settled o

theorem Op.settles_box (p : Payload) : (Op.box p).Settles (.ok p) := fun _ => rfl

theorem Op.settles_raise (f : Fault) : (Op.raise f).Settles (.error f) := fun _ => rfl

/-! ## Boxing -/

/-- The payload of a scalar tag with this word, if the word is in the tag's domain. -/
def Boxing.packed (tag : Tag) (raw : Int64) : Except Fault Payload :=
  match tag with
  | .null => .ok .null
  | .int => .ok (.int raw)
  | .byte =>
    match byte? raw with
    | some b => .ok (.byte b)
    | none => .error (.range "box_byte" (Numeral.word raw ++ " is not in 0..=255"))
  | .char =>
    match scalarValue? raw with
    | some c => .ok (.char c)
    | none => .error (.range "box_char" (Numeral.word raw ++ " is not a unicode scalar value"))
  | .bool =>
    match bool? raw with
    | some b => .ok (.bool b)
    | none => .error (.range "make_scalar" (Numeral.word raw ++ " is not a bool payload"))
  | .real | .string | .list | .record => .error (.unsupported "make_scalar" tag)

theorem Boxing.scalar_settles (tag : Tag) (raw : Int64) : (Boxing.scalar tag raw).Settles (Boxing.packed tag raw) := by
  cases tag with
  | null => exact Op.settles_box .null
  | int => exact Op.settles_box (.int raw)
  | byte =>
    simp only [Boxing.scalar, Boxing.byte, Boxing.packed]
    cases byte? raw with
    | some b => exact Op.settles_box (.byte b)
    | none => exact Op.settles_raise _
  | char =>
    simp only [Boxing.scalar, Boxing.char, Boxing.packed]
    cases scalarValue? raw with
    | some c => exact Op.settles_box (.char c)
    | none => exact Op.settles_raise _
  | bool =>
    simp only [Boxing.scalar, Boxing.bool, Boxing.packed]
    cases bool? raw with
    | some b => exact Op.settles_box (.bool b)
    | none => exact Op.settles_raise _
  | _ => exact Op.settles_raise _

/-! ## Conversions -/

def Conversion.notScalar (c : Conversion) (tag : Tag) : Fault :=
  .internal c.name (tag.name ++ " payload is not a scalar")

/-- What a conversion makes of a value: the first stage that finds something amiss decides. -/
def Conversion.converted (c : Conversion) (x : Handle) : Except Fault Payload :=
  match Guard.fault? x c.name with
  | some f => .error f
  | none =>
    if x.tag ∉ c.accepts then .error (.unsupported c.name x.tag)
    else match x.scalar? with
      | none => .error (c.notScalar x.tag)
      | some raw => if c.precondition.holds raw then Boxing.packed c.result raw else .error (c.unmet raw)

theorem Conversion.apply_settles (c : Conversion) (x : Handle) : (c.apply x).Settles (c.converted x) := by
  intro s
  rw [Conversion.apply, Op.bind_apply, Guard.check_apply, Conversion.converted]
  cases Guard.fault? x c.name with
  | some f => rfl
  | none =>
    by_cases ht : x.tag ∉ c.accepts
    · simp only [if_pos ht]
      exact Op.settles_raise _ s
    · simp only [if_neg ht]
      cases x.scalar? with
      | none => exact Op.settles_raise _ s
      | some raw =>
        by_cases hp : c.precondition.holds raw = true
        · simp only [if_pos hp]
          exact Boxing.scalar_settles c.result raw s
        · simp only [if_neg hp]
          exact Op.settles_raise _ s

/-! ## The argument of a routine -/

namespace Guard

/-- Not one argument, or one whose header is not what its payload calls for. -/
def Misused (args : List Handle) : Prop := args.length ≠ 1 ∨ ∃ x, args = [x] ∧ ¬ x.Sound

theorem misused_singleton {x : Handle} : Misused [x] ↔ ¬ x.Sound := by simp [Misused]

theorem fault?_spec {x : Handle} {label : String} {f : Fault} (h : fault? x label = some f) :
    f.kind = .internalConsistency ∧ f.routine = label ∧ ¬ x.Sound := by
  have hx : ¬ x.Sound := by
    intro hs
    rw [fault?_eq_none_iff.mpr hs] at h
    cases h
  unfold fault? at h
  split at h
  · cases h
    exact ⟨rfl, rfl, hx⟩
  · split at h
    · cases h
      exact ⟨rfl, rfl, hx⟩
    · cases h

theorem argument_cases (args : List Handle) (label : String) :
    (∃ x, args = [x] ∧ x.Sound ∧ ∀ s, argument args label s = (.ok x, s)) ∨
      (∃ f, Misused args ∧ f.kind = .internalConsistency ∧ f.routine = label ∧
        ∀ s, argument args label s = (.error f, s.raised f)) := by
  match args with
  | [] => exact Or.inr ⟨wrongArity label 1 0, Or.inl (by simp), rfl, rfl, fun _ => rfl⟩
  | x :: y :: r => exact Or.inr ⟨wrongArity label 1 (x :: y :: r).length, Or.inl (by simp), rfl, rfl, fun _ => rfl⟩
  | [x] =>
    have hrun : ∀ s, argument [x] label s = match fault? x label with
        | some f => (.error f, s.raised f)
        | none => (.ok x, s) := by
      intro s
      rw [argument, Op.bind_apply, check_apply]
      cases fault? x label <;> rfl
    cases hf : fault? x label with
    | none => exact Or.inl ⟨x, rfl, fault?_eq_none_iff.mp hf, fun s => by rw [hrun, hf]⟩
    | some f =>
      obtain ⟨hkind, hroutine, hx⟩ := fault?_spec hf
      exact Or.inr ⟨f, misused_singleton.mpr hx, hkind, hroutine, fun s => by rw [hrun, hf]⟩

/-- Behind the guard on the argument. -/
theorem argument_settles {x : Handle} (hx : x.Sound) {label : String} {k : Handle → Op Handle}
    {o : Except Fault Payload} (hk : (k x).Settles o) : (argument [x] label >>= k).Settles o := by
  intro s
  rcases argument_cases [x] label with ⟨y, hy, -, hrun⟩ | ⟨_, hmisused, -⟩
  · cases hy
    rw [Op.bind_apply, hrun]
    exact hk s
  · exact absurd hx (misused_singleton.mp hmisused)

end Guard
end BoxedRuntime
