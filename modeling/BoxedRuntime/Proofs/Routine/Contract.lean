/-
  BoxedRuntime.Proofs.Routine.Contract — the contracts of the shipped routines.

  A routine of one argument answers every list of arguments in one of four ways, and the
  arguments decide which: an internal fault for a call or a handle that should not be, an
  unsupported type, a range violation, or a value. Its contract says which tags it
  accepts, which words, and what the value is.

  Each of the shipped conversions is exact: it accepts only tags with a word, and its
  precondition admits the words that fit the destination and no others. So no fault comes
  from a later stage, which would not know the routine's name.

  Main statements:
  - `Meets.of_outcome`: one of the four outcomes for all arguments is the whole contract.
  - `Conversion.Exact.meets`: an exact conversion meets the contract of its row.
  - `shipped_routines_meet`: the four shipped routines and their contracts.
-/
import BoxedRuntime.Proofs.Routine.Checks
import BoxedRuntime.Rendering

namespace BoxedRuntime

/-! ## Contracts -/

structure Contract where
  name : String
  accepts : List Tag
  domain : Int → Prop
  result : Tag
  /-- How the payload of the value depends on the argument. -/
  answers : Handle → Payload → Prop

def faultKind? : Except Fault Handle → Option FaultKind
  | .error f => some f.kind
  | .ok _ => none

namespace Contract

/-- A word, if the argument has one, that is outside the domain. -/
def Excludes (c : Contract) (x : Handle) : Prop := ∃ n, x.scalar? = some n ∧ ¬ c.domain n.toInt

/-- The one way to answer these arguments. -/
inductive Outcome (c : Contract) (args : List Handle) : Except Fault Handle → Prop
  | misused (f : Fault) : Guard.Misused args → f.kind = .internalConsistency → f.routine = c.name →
      (∀ s, (Guard.argument args c.name s).1 = .error f) → Outcome c args (.error f)
  | unsupported (x : Handle) : args = [x] → x.Sound → x.tag ∉ c.accepts →
      Outcome c args (.error (.unsupported c.name x.tag))
  | range (x : Handle) (detail : String) : args = [x] → x.Sound → x.tag ∈ c.accepts → c.Excludes x →
      Outcome c args (.error (.range c.name detail))
  | value (x y : Handle) : args = [x] → x.Sound → x.tag ∈ c.accepts → ¬ c.Excludes x → y.Sound → y.tag = c.result →
      c.answers x y.payload → Outcome c args (.ok y)

end Contract

/-- For all arguments and in every session the routine does what the contract says. -/
structure Meets (f : Routine) (c : Contract) : Prop where
  internal : ∀ args s, faultKind? (f args s).1 = some .internalConsistency ↔ Guard.Misused args
  unsupported : ∀ args s, faultKind? (f args s).1 = some .unsupportedType ↔
    ∃ x, args = [x] ∧ x.Sound ∧ x.tag ∉ c.accepts
  range : ∀ args s, faultKind? (f args s).1 = some .rangeViolation ↔
    ∃ x, args = [x] ∧ x.Sound ∧ x.tag ∈ c.accepts ∧ c.Excludes x
  value : ∀ x, x.Sound → x.tag ∈ c.accepts → ¬ c.Excludes x →
    ∀ s, ∃ y, (f [x] s).1 = .ok y ∧ y.Sound ∧ y.tag = c.result ∧ c.answers x y.payload
  /-- Every fault cites the routine. -/
  cites : ∀ args s fault, (f args s).1 = .error fault → fault.routine = c.name
  /-- Every internal fault is one of the guard on the arguments. -/
  guarded : ∀ args s fault, (f args s).1 = .error fault → fault.kind = .internalConsistency →
    (Guard.argument args c.name s).1 = .error fault

namespace Contract

variable {c : Contract} {args : List Handle} {r : Except Fault Handle}

/-- The outcomes exclude each other, so the kind of the fault tells which one it was. -/
theorem Outcome.kind_iff (h : c.Outcome args r) :
    (faultKind? r = some .internalConsistency ↔ Guard.Misused args) ∧
      (faultKind? r = some .unsupportedType ↔ ∃ x, args = [x] ∧ x.Sound ∧ x.tag ∉ c.accepts) ∧
      (faultKind? r = some .rangeViolation ↔ ∃ x, args = [x] ∧ x.Sound ∧ x.tag ∈ c.accepts ∧ c.Excludes x) := by
  cases h with
  | misused f hm hk =>
    have hnone : ∀ x, args = [x] → ¬ x.Sound := by
      intro x ha
      subst ha
      exact Guard.misused_singleton.mp hm
    refine ⟨by simp [faultKind?, hk, hm], ?_, ?_⟩
    · simp only [faultKind?, hk, Option.some.injEq, reduceCtorEq, false_iff]
      intro ⟨x, ha, hs, _⟩
      exact hnone x ha hs
    · simp only [faultKind?, hk, Option.some.injEq, reduceCtorEq, false_iff]
      intro ⟨x, ha, hs, _⟩
      exact hnone x ha hs
  | unsupported x ha hs ht => simp [faultKind?, ha, Guard.misused_singleton, hs, ht, Fault.unsupported]
  | range x d ha hs ht hx => simp [faultKind?, ha, Guard.misused_singleton, hs, ht, hx, Fault.range]
  | value x y ha hs ht hx => simp [faultKind?, ha, Guard.misused_singleton, hs, ht, hx]

/-- The value to one accepted argument in the domain. -/
theorem Outcome.value_of {x : Handle} (h : c.Outcome [x] r) (hs : x.Sound) (ht : x.tag ∈ c.accepts)
    (hx : ¬ c.Excludes x) : ∃ y, r = .ok y ∧ y.Sound ∧ y.tag = c.result ∧ c.answers x y.payload := by
  cases h with
  | misused f hm => exact absurd hs (Guard.misused_singleton.mp hm)
  | unsupported x' ha _ ht' => cases ha; exact absurd ht ht'
  | range x' d ha _ _ hx' => cases ha; exact absurd hx' hx
  | value x' y ha _ _ _ hy hres hans => cases ha; exact ⟨y, rfl, hy, hres, hans⟩

theorem Outcome.cites {f : Fault} (h : c.Outcome args (.error f)) : f.routine = c.name := by
  cases h with
  | misused _ _ _ hr => exact hr
  | _ => rfl

theorem Outcome.guarded {f : Fault} (h : c.Outcome args (.error f)) (hk : f.kind = .internalConsistency) (s : Session) :
    (Guard.argument args c.name s).1 = .error f := by
  cases h with
  | misused _ _ _ _ hg => exact hg s
  | _ => cases hk

end Contract

theorem Meets.of_outcome {f : Routine} {c : Contract} (h : ∀ args s, c.Outcome args (f args s).1) : Meets f c where
  internal args s := (h args s).kind_iff.1
  unsupported args s := (h args s).kind_iff.2.1
  range args s := (h args s).kind_iff.2.2
  value x hs ht hx s := (h [x] s).value_of hs ht hx
  cites args s _ he := (he ▸ h args s).cites
  guarded args s _ he hk := (he ▸ h args s).guarded hk s

/-- A value comes of one accepted argument in the domain. -/
theorem Meets.of_ok {f : Routine} {c : Contract} (h : Meets f c) {args : List Handle} {s : Session} {y : Handle}
    (hy : (f args s).1 = .ok y) : ∃ x, args = [x] ∧ x.Sound ∧ x.tag ∈ c.accepts ∧ ¬ c.Excludes x := by
  have hkind : ∀ k, faultKind? (f args s).1 ≠ some k := by simp [hy, faultKind?]
  have hused : ¬ Guard.Misused args := fun hm => hkind _ ((h.internal args s).mpr hm)
  obtain ⟨hlength, hsound⟩ := not_or.mp hused
  obtain ⟨x, rfl⟩ := List.length_eq_one_iff.mp (Classical.not_not.mp hlength)
  have hs : x.Sound := Classical.byContradiction fun hn => hsound ⟨x, rfl, hn⟩
  have ht : x.tag ∈ c.accepts := Classical.byContradiction fun hn => hkind _ ((h.unsupported [x] s).mpr ⟨x, rfl, hs, hn⟩)
  exact ⟨x, rfl, hs, ht, fun hx => hkind _ ((h.range [x] s).mpr ⟨x, rfl, hs, ht, hx⟩)⟩

/-- Behind the guard on the arguments only one sound argument is left to be answered. -/
theorem Meets.of_guarded {f : Routine} {c : Contract} {k : Handle → Op Handle}
    (hf : ∀ args, f args = Guard.argument args c.name >>= k)
    (hk : ∀ x, x.Sound → ∀ s, c.Outcome [x] (k x s).1) : Meets f c := by
  refine Meets.of_outcome fun args s => ?_
  rw [hf]
  rcases Guard.argument_cases args c.name with ⟨x, rfl, hs, hrun⟩ | ⟨f, hm, hkind, hroutine, hrun⟩
  · have hnext : (Guard.argument [x] c.name >>= k) s = k x s := by rw [Op.bind_apply, hrun]
    rw [hnext]
    exact hk x hs s
  · have hstop : (Guard.argument args c.name >>= k) s = (.error f, s.raised f) := by rw [Op.bind_apply, hrun]
    rw [hstop]
    exact .misused f hm hkind hroutine fun s => by rw [hrun]

/-! ## Conversions -/

/-- The value stands for the argument's own word. -/
def sameScalar (x : Handle) (p : Payload) : Prop := ∃ n, x.scalar? = some n ∧ p.scalar? = some n

namespace Conversion

def contract (c : Conversion) : Contract := ⟨c.name, c.accepts, c.result.Domain, c.result, sameScalar⟩

/-- Only tags with a word are accepted, and exactly the words that fit the destination. -/
structure Exact (c : Conversion) : Prop where
  scalars : ∀ t ∈ c.accepts, t.isScalar = true
  admits : ∀ n, c.precondition.holds n = true ↔ c.result.Domain n.toInt
  result : c.result ≠ .null

theorem Exact.admits_iff {c : Conversion} (h : c.Exact) {n : Int64} :
    c.precondition.Admits n.toInt ↔ c.result.Domain n.toInt := Precondition.holds_iff.symm.trans (h.admits n)

theorem Exact.meets {c : Conversion} (h : c.Exact) : Meets c.routine c.contract := by
  refine Meets.of_guarded (fun _ => rfl) fun x hs s => ?_
  rw [c.apply_settles x s]
  by_cases ht : x.tag ∈ c.accepts
  · rcases reads_or_wordless hs ht with ⟨n, hr⟩ | ⟨-, hnone⟩
    · by_cases hd : c.result.Domain n.toInt
      · obtain ⟨p, hpack, htag, hscalar⟩ := Boxing.packed_ok hd
        rw [if_neg h.result] at hscalar
        rw [hr.converted_met (h.admits_iff.mpr hd), hpack]
        refine .value x _ rfl hs ht ?_ ⟨rfl, rfl⟩ htag ⟨n, hr.word, hscalar⟩
        rintro ⟨m, hm, hout⟩
        cases hr.word.symm.trans hm
        exact hout hd
      · rw [hr.converted_unmet (mt h.admits_iff.mp hd)]
        exact .range x _ rfl hs ht ⟨n, hr.word, hd⟩
    · rw [h.scalars x.tag ht] at hnone
      cases hnone
  · rw [converted_unaccepted hs ht]
    exact .unsupported x rfl hs ht

theorem integral_isScalar : ∀ t ∈ integral, t.isScalar = true := by decide

theorem toUnsignedByte_exact : toUnsignedByte.Exact where
  scalars := integral_isScalar
  admits n := by
    show ((0 ≤ n) && (n ≤ 255)) = true ↔ 0 ≤ n.toInt ∧ n.toInt ≤ 255
    rw [Bool.and_eq_true, decide_eq_true_iff, decide_eq_true_iff, Int64.le_iff_toInt_le, Int64.le_iff_toInt_le]
    rfl
  result := by decide

theorem toUnsignedInt_exact : toUnsignedInt.Exact where
  scalars := integral_isScalar
  admits n := by simp [toUnsignedInt, Precondition.holds, Tag.Domain]
  result := by decide

theorem toChar_exact : toChar.Exact where
  scalars := integral_isScalar
  admits n := scalarValue?_isSome
  result := by decide

end Conversion

/-! ## Rendering -/

namespace Rendering

/-- A string's own text, or else what is displayed. -/
def ownText (x : Handle) : String :=
  match x.payload with
  | .string t => t
  | _ => x.display

def contract : Contract :=
  ⟨name, [.null, .bool, .byte, .char, .int, .real, .string], fun _ => True, .string, fun x p => p = .string (ownText x)⟩

theorem rendered?_eq (x : Handle) :
    rendered? x.payload = if x.payload.tag ∈ contract.accepts then some (ownText x) else none := by
  obtain ⟨i, m, t, p⟩ := x
  cases p <;> simp [rendered?, ownText, contract, Payload.tag, Handle.display, Handle.text]

theorem meets : Meets routine contract := by
  refine Meets.of_guarded (fun _ => rfl) fun x hs s => ?_
  have hnone : ¬ contract.Excludes x := by
    intro ⟨_, _, hout⟩
    exact hout trivial
  rw [rendered?_eq]
  by_cases ht : x.payload.tag ∈ contract.accepts
  · rw [if_pos ht]
    exact .value x _ rfl hs (hs.2 ▸ ht) hnone ⟨rfl, rfl⟩ rfl rfl
  · rw [if_neg ht]
    exact .unsupported x rfl hs (hs.2 ▸ ht)

theorem routine_settles {x : Handle} (hs : x.Sound) (ht : x.tag ∈ contract.accepts) :
    (routine [x]).Settles (.ok (.string (ownText x))) := by
  refine Guard.argument_settles hs ?_
  rw [rendered?_eq, if_pos (hs.2 ▸ ht)]
  exact Op.settles_box (.string (ownText x))

end Rendering

/-! ## The shipped routines -/

theorem shipped_routines_meet :
    Meets Conversion.toUnsignedByte.routine
        ⟨"toUnsignedByte", [.int, .char, .byte], fun n => 0 ≤ n ∧ n ≤ 255, .byte, sameScalar⟩ ∧
      Meets Conversion.toUnsignedInt.routine
        ⟨"toUnsignedInt", [.int, .char, .byte], fun _ => True, .int, sameScalar⟩ ∧
      Meets Conversion.toChar.routine
        ⟨"toChar", [.int, .char, .byte], fun n => 0 ≤ n ∧ n < 0xD800 ∨ 0xDFFF < n ∧ n ≤ 0x10FFFF, .char, sameScalar⟩ ∧
      Meets Rendering.routine
        ⟨"toString", [.null, .bool, .byte, .char, .int, .real, .string], fun _ => True, .string,
          fun x p => p = .string (Rendering.ownText x)⟩ :=
  ⟨Conversion.toUnsignedByte_exact.meets, Conversion.toUnsignedInt_exact.meets, Conversion.toChar_exact.meets,
    Rendering.meets⟩

end BoxedRuntime
