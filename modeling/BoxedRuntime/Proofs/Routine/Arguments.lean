/-
  BoxedRuntime.Proofs.Routine.Arguments — what the guard asks of a list of arguments.

  A routine says how many arguments it takes. The guard counts first and looks at no
  argument if the number is wrong; then it checks one argument after the other, and the
  first that is not in order is the one complained of, whatever stands behind it. So three
  things decide a fault, in this order: the number, the place in the list, and of that one
  argument its first header word before its second.

  Main statements:
  - `checkEach_of_first`: the first argument that fails its check decides the fault.
  - `checkArguments_eq`: the guard is a count and then these checks.
  - `argument_eq`: the guard of the routines of one argument is this guard.
  - `arguments_guarded`: all of it for every list, number and label.
-/
import BoxedRuntime.Proofs.Routine.Outcome

namespace BoxedRuntime.Guard

variable {args before after : List Handle} {x : Handle} {expected : Nat} {label : String} {f : Fault} {s s' : Session}

/-! ## One argument -/

theorem check_of_none (h : fault? x label = none) (s : Session) : check x label s = (.ok (), s) := by
  rw [check_apply, h]

theorem check_of_some (h : fault? x label = some f) (s : Session) : check x label s = (.error f, s.raised f) := by
  rw [check_apply, h]

/-- The guard lets a handle through in every session or in none. -/
theorem fault?_of_check_ok (h : check x label s = (.ok (), s')) : fault? x label = none := by
  cases hx : fault? x label with
  | none => rfl
  | some f =>
    rw [check_of_some hx] at h
    cases h

theorem fault?_of_check_error (h : check x label s = (.error f, s')) : fault? x label = some f ∧ s' = s.raised f := by
  cases hx : fault? x label with
  | none =>
    rw [check_of_none hx] at h
    cases h
  | some g =>
    rw [check_of_some hx] at h
    cases h
    exact ⟨rfl, rfl⟩

/-- What the guard says of one handle: the first header word decides before the second. -/
theorem check_cases (x : Handle) (label : String) (s : Session) :
    x.Sound ∧ check x label s = (.ok (), s) ∨
      x.magic ≠ liveMagic ∧ check x label s = (.error (badMagic label x.magic), s.raised (badMagic label x.magic)) ∨
      x.magic = liveMagic ∧ x.tag ≠ x.payload.tag ∧ check x label s =
        (.error (tagMismatch label x.tag x.payload.tag), s.raised (tagMismatch label x.tag x.payload.tag)) := by
  by_cases hmagic : x.magic = liveMagic
  · by_cases htag : x.tag = x.payload.tag
    · exact Or.inl ⟨⟨hmagic, htag⟩, check_of_none (fault?_eq_none_iff.mpr ⟨hmagic, htag⟩) s⟩
    · refine Or.inr (Or.inr ⟨hmagic, htag, check_of_some ?_ s⟩)
      rw [fault?, if_neg (not_not_intro hmagic), if_pos htag]
  · exact Or.inr (Or.inl ⟨hmagic, check_of_some (if_pos hmagic) s⟩)

/-! ## One argument after the other -/

/-- Check each argument in turn, up to the first that is not in order. -/
def checkEach (args : List Handle) (label : String) : Op Unit := args.forM (check · label)

theorem checkEach_cons (x : Handle) (args : List Handle) (label : String) :
    checkEach (x :: args) label = check x label >>= fun _ => checkEach args label := rfl

/-- An argument in order leaves no trace, so the rest is checked as if it were not there. -/
theorem checkEach_append (h : ∀ y ∈ before, fault? y label = none) (rest : List Handle) (s : Session) :
    checkEach (before ++ rest) label s = checkEach rest label s := by
  induction before with
  | nil => rfl
  | cons y before ih =>
    rw [List.cons_append, checkEach_cons, Op.bind_apply, check_of_none (h y List.mem_cons_self)]
    exact ih fun z hz => h z (List.mem_cons_of_mem y hz)

theorem checkEach_of_sound (h : ∀ y ∈ args, fault? y label = none) (s : Session) :
    checkEach args label s = (.ok (), s) := by
  have hall := checkEach_append h [] s
  rwa [List.append_nil] at hall

theorem checkEach_of_first (hbefore : ∀ y ∈ before, fault? y label = none) (hx : fault? x label = some f)
    (after : List Handle) (s : Session) : checkEach (before ++ x :: after) label s = (.error f, s.raised f) := by
  rw [checkEach_append hbefore, checkEach_cons, Op.bind_apply, check_of_some hx]

/-- All are in order, or one is the first that is not. -/
theorem sound_or_first (args : List Handle) (label : String) :
    (∀ y ∈ args, fault? y label = none) ∨
      ∃ before x after f, args = before ++ x :: after ∧ (∀ y ∈ before, fault? y label = none) ∧
        fault? x label = some f := by
  cases h : args.findSome? (fault? · label) with
  | none => exact Or.inl (List.findSome?_eq_none_iff.mp h)
  | some f =>
    obtain ⟨before, x, after, hsplit, hx, hbefore⟩ := List.findSome?_eq_some_iff.mp h
    exact Or.inr ⟨before, x, after, f, hsplit, hbefore, hx⟩

/-! ## Arguments -/

theorem checkArguments_of_length (h : args.length ≠ expected) :
    checkArguments args expected label = Op.raise (wrongArity label expected args.length) := if_pos h

theorem checkArguments_eq (h : args.length = expected) (label : String) :
    checkArguments args expected label = checkEach args label := by
  rw [checkArguments, if_neg (not_not_intro h)]
  funext s
  rcases sound_or_first args label with hall | ⟨before, x, after, f, rfl, hbefore, hx⟩
  · rw [checkEach_of_sound hall, List.findSome?_eq_none_iff.mpr hall]
    rfl
  · rw [checkEach_of_first hbefore hx, List.findSome?_eq_some_iff.mpr ⟨before, x, after, rfl, hx, hbefore⟩]
    rfl

/-- The three ways for the guard to end. -/
theorem checkArguments_cases (args : List Handle) (expected : Nat) (label : String) :
    args.length ≠ expected ∨ args.length = expected ∧
      ((∀ y ∈ args, fault? y label = none) ∧ (∀ s, checkArguments args expected label s = (.ok (), s)) ∨
        ∃ x ∈ args, ∃ f, fault? x label = some f ∧ ∀ s, checkArguments args expected label s = (.error f, s.raised f)) := by
  by_cases hlength : args.length = expected
  · refine Or.inr ⟨hlength, ?_⟩
    rw [checkArguments_eq hlength]
    rcases sound_or_first args label with hall | ⟨before, x, after, f, rfl, hbefore, hx⟩
    · exact Or.inl ⟨hall, checkEach_of_sound hall⟩
    · exact Or.inr ⟨x, List.mem_append_right before List.mem_cons_self, f, hx, checkEach_of_first hbefore hx after⟩
  · exact Or.inl hlength

/-- The guard of the routines of one argument lets that argument through, or ends as this
    guard does. -/
theorem argument_eq (args : List Handle) (label : String) (s : Session) :
    (∃ x, args = [x] ∧ checkArguments args 1 label s = (.ok (), s) ∧ argument args label s = (.ok x, s)) ∨
      ∃ f, checkArguments args 1 label s = (.error f, s.raised f) ∧ argument args label s = (.error f, s.raised f) := by
  match args with
  | [] => exact Or.inr ⟨_, rfl, rfl⟩
  | _ :: _ :: _ => exact Or.inr ⟨_, rfl, rfl⟩
  | [x] =>
    have hguard : checkArguments [x] 1 label = (check x label >>= fun _ => checkEach [] label) :=
      checkArguments_eq rfl label
    rw [hguard, argument, Op.bind_apply, Op.bind_apply]
    cases hx : fault? x label with
    | none =>
      rw [check_of_none hx]
      exact Or.inl ⟨x, rfl, rfl, rfl⟩
    | some f =>
      rw [check_of_some hx]
      exact Or.inr ⟨f, rfl, rfl⟩

/-! ## Every list of arguments -/

/-- What the guard makes of a list of arguments. -/
structure ArgumentsGuarded (args : List Handle) (expected : Nat) (label : String) : Prop where
  ok_iff : ∀ s, (∃ s', checkArguments args expected label s = (.ok (), s')) ↔
    args.length = expected ∧ ∀ x ∈ args, ∃ s', check x label s = (.ok (), s')
  /-- Arguments that are in order leave no trace. -/
  untouched : ∀ s s', checkArguments args expected label s = (.ok (), s') → s' = s
  /-- The number is wrong: nothing is asked of the arguments. -/
  arity : args.length ≠ expected →
    let f : Fault := ⟨.internalConsistency, label, s!"expected {expected} argument(s), received {args.length}"⟩
    ∀ s, checkArguments args expected label s = (.error f, s.raised f)
  /-- The number is right: the first argument that is not in order decides. -/
  first : args.length = expected → ∀ before x after, args = before ++ x :: after →
    ∀ s, (∀ y ∈ before, ∃ s', check y label s = (.ok (), s')) →
      ∀ f s', check x label s = (.error f, s') → checkArguments args expected label s = (.error f, s')
  /-- All are in order, or there is a first that is not. -/
  decided : args.length = expected → ∀ s, (∀ y ∈ args, check y label s = (.ok (), s)) ∨
    ∃ before x after f, args = before ++ x :: after ∧ (∀ y ∈ before, check y label s = (.ok (), s)) ∧
      check x label s = (.error f, s.raised f)
  fault : ∀ f s s', checkArguments args expected label s = (.error f, s') →
    f.kind = .internalConsistency ∧ f.routine = label ∧ s' = s.raised f

theorem guards_arguments (args : List Handle) (expected : Nat) (label : String) :
    ArgumentsGuarded args expected label where
  ok_iff s := by
    rcases checkArguments_cases args expected label with hlength | ⟨hlength, ⟨hall, hrun⟩ | ⟨x, hx, f, hf, hrun⟩⟩
    · rw [checkArguments_of_length hlength]
      exact ⟨nofun, fun h => absurd h.1 hlength⟩
    · exact ⟨fun _ => ⟨hlength, fun y hy => ⟨s, check_of_none (hall y hy) s⟩⟩, fun _ => ⟨s, hrun s⟩⟩
    · rw [hrun]
      refine ⟨nofun, fun h => ?_⟩
      obtain ⟨s', hok⟩ := h.2 x hx
      rw [check_of_some hf] at hok
      cases hok
  untouched s s' h := by
    rcases checkArguments_cases args expected label with hlength | ⟨-, ⟨-, hrun⟩ | ⟨_, -, f, -, hrun⟩⟩
    · rw [checkArguments_of_length hlength] at h
      cases h
    · rw [hrun] at h
      cases h
      rfl
    · rw [hrun] at h
      cases h
  arity h s := by
    rw [checkArguments_of_length h]
    rfl
  first hlength before x after hsplit s hbefore f s' hx := by
    have hsound : ∀ y ∈ before, fault? y label = none := fun y hy => by
      obtain ⟨t, ht⟩ := hbefore y hy
      exact fault?_of_check_ok ht
    obtain ⟨hf, rfl⟩ := fault?_of_check_error hx
    rw [checkArguments_eq hlength, hsplit, checkEach_of_first hsound hf]
  decided _ s := by
    rcases sound_or_first args label with hall | ⟨before, x, after, f, hsplit, hbefore, hx⟩
    · exact Or.inl fun y hy => check_of_none (hall y hy) s
    · exact Or.inr ⟨before, x, after, f, hsplit, fun y hy => check_of_none (hbefore y hy) s, check_of_some hx s⟩
  fault f s s' h := by
    rcases checkArguments_cases args expected label with hlength | ⟨-, ⟨-, hrun⟩ | ⟨_, -, g, hg, hrun⟩⟩
    · rw [checkArguments_of_length hlength] at h
      cases h
      exact ⟨rfl, rfl, rfl⟩
    · rw [hrun] at h
      cases h
    · rw [hrun] at h
      cases h
      obtain ⟨hkind, hroutine, -⟩ := fault?_spec hg
      exact ⟨hkind, hroutine, rfl⟩

/-- Every list, number and label, down to what is said of one handle; and the routines of
    one argument ask for the same. -/
theorem arguments_guarded (args : List Handle) (label : String) :
    (∀ expected, ArgumentsGuarded args expected label) ∧
      (∀ x s, x.Sound ∧ check x label s = (.ok (), s) ∨
        x.magic ≠ liveMagic ∧
          check x label s = (.error (badMagic label x.magic), s.raised (badMagic label x.magic)) ∨
        x.magic = liveMagic ∧ x.tag ≠ x.payload.tag ∧ check x label s =
          (.error (tagMismatch label x.tag x.payload.tag), s.raised (tagMismatch label x.tag x.payload.tag))) ∧
      ∀ s, (∃ x, args = [x] ∧ checkArguments args 1 label s = (.ok (), s) ∧ argument args label s = (.ok x, s)) ∨
        ∃ f, checkArguments args 1 label s = (.error f, s.raised f) ∧
          argument args label s = (.error f, s.raised f) :=
  ⟨fun expected => guards_arguments args expected label, fun x => check_cases x label, argument_eq args label⟩

/-- Three arguments, of which the second has a foreign tag and the third a foreign first
    word too: it is the second that is complained of, or their number. -/
theorem mistagged_second_complained :
    let good : Handle := ⟨0, liveMagic, .int, .int 7⟩
    let mistagged : Handle := ⟨1, liveMagic, .char, .int 7⟩
    let foreign : Handle := ⟨2, 0xDEADBEEF, .list, .null⟩
    let args := [good, mistagged, foreign]
    (∀ s, checkArguments args 3 "pack" s = (.error (tagMismatch "pack" .char .int),
        s.raised (tagMismatch "pack" .char .int))) ∧
      ∀ s, checkArguments args 2 "pack" s = (.error (wrongArity "pack" 2 3), s.raised (wrongArity "pack" 2 3)) := by
  intro good mistagged foreign args
  obtain ⟨hguarded, -⟩ := arguments_guarded args "pack"
  constructor
  · intro s
    refine (hguarded 3).first rfl [good] mistagged [foreign] rfl s ?_ _ _ rfl
    intro y hy
    obtain rfl := List.mem_singleton.mp hy
    exact ⟨s, rfl⟩
  · exact (hguarded 2).arity (by decide)

end BoxedRuntime.Guard
