/-
  BoxedRuntime.Proofs.Command.Calling — the command that calls a routine.

  `call` reads a literal, looks a routine up and calls it on the one value. Each of the
  three may be what stops it, and the first that does decides what is written. On the way
  the log takes no record that is shown without asking for it, so the standard error has
  the complaint and nothing else. Of the parser of the command line nothing is assumed, of
  the library that writes the log only what it shows at a level.

  Nothing that `call` can do ends in an internal fault: a literal makes a sound value or
  is a range fault, and the routines of the runtime without extensions find nothing wrong
  with a sound value.

  Main statements:
  - `quiet_text`: what is shown of a log without warnings and errors.
  - `Literal.read_cases`: a literal does the same in every session.
  - `Routine.Regular`: so does a shipped routine on a value that was just made.
  - `call_agrees`: what `call` writes, and its status.
-/
import BoxedRuntime.Command.Run
import BoxedRuntime.Proofs.Literal.Language
import BoxedRuntime.Proofs.Routine.Contract
import BoxedRuntime.Proofs.Startup.Queries

namespace BoxedRuntime

/-! ## The log -/

/-- The log has no warning and no error. -/
def Session.Quiet (s : Session) : Prop := ∀ r ∈ s.log.toList, Level.warn.verbosity < r.level.verbosity

theorem Session.Quiet.raised {s : Session} (h : s.Quiet) (f : Fault) : (s.raised f).Quiet := by
  intro r hr
  simp only [Session.raised, Session.write, Array.toList_push, List.mem_append, List.mem_singleton] at hr
  rcases hr with hr | rfl
  · exact h r hr
  · exact show Level.warn.verbosity < Level.debug.verbosity by decide

/-- At the level of warnings the library shows nothing of such a log, whatever it is. -/
theorem Command.quiet_text {s : Session} (h : s.Quiet) {env : Environment} (henv : env.logSpec = .unset) :
    (logging false env).text s.log.toList = "" := by
  have hhidden : s.log.toList.filter (env.logs.atLevel .warn none).shows = [] := by
    rw [List.filter_eq_nil_iff]
    intro r hr
    have := h r hr
    rw [env.logs.shows_atLevel, decide_eq_true_eq]
    omega
  have hlogging : logging false env = loggingAt .warn env := by simp only [logging, henv, Bool.false_eq_true, if_false]
  rw [hlogging, loggingAt, henv]
  simp only [Variable.text?, Logging.text, hhidden, env.logs.notices_atLevel]
  rfl

/-- The builtin modules have distinct names and find nothing to complain of. -/
theorem Runtime.boot_quiet : (Runtime.boot [] [] {}).2.Quiet := by
  unfold Session.Quiet
  decide +kernel

/-! ## Literals -/

theorem Literal.read_cases (literal : String) :
    (∃ e, ∀ s, read literal s = (.ok (.error e), s)) ∨
      (∃ f, f.kind = .rangeViolation ∧ ∀ s, read literal s = (.error f, s.raised f)) ∨
      ∃ p, ∀ s, read literal s =
        (.ok (.ok ⟨s.nextId, liveMagic, p.tag, p⟩), { s with nextId := s.nextId + 1 }) := by
  obtain ⟨r, hr⟩ := exists_reads literal
  cases r with
  | value p => exact Or.inr (Or.inr ⟨p, hr.read⟩)
  | refused e => exact Or.inl ⟨e, hr.read⟩
  | fault f => exact Or.inr (Or.inl ⟨f, hr.fault_kind, hr.read⟩)

/-! ## Routines -/

/-- On a value that was just made, what the routine does is decided by the payload, and it
    has no complaint about the object itself. -/
def Routine.Regular (f : Routine) : Prop :=
  ∀ p, ∃ o, (∀ id, (f [⟨id, liveMagic, p.tag, p⟩]).Settles o) ∧
    ∀ fault, o = .error fault → fault.kind ≠ .internalConsistency

theorem Meets.regular {f : Routine} {c : Contract} (h : Meets f c)
    (hf : ∀ p, ∃ o, ∀ id, (f [⟨id, liveMagic, p.tag, p⟩]).Settles o) : f.Regular := by
  intro p
  obtain ⟨o, ho⟩ := hf p
  refine ⟨o, ho, ?_⟩
  rintro fault rfl hkind
  have hinternal : faultKind? (f [⟨0, liveMagic, p.tag, p⟩] {}).1 = some .internalConsistency := by
    rw [ho 0 {}]
    exact congrArg some hkind
  exact Guard.misused_singleton.mp ((h.internal _ _).mp hinternal) ⟨rfl, rfl⟩

theorem Conversion.Exact.regular {c : Conversion} (h : c.Exact) : Routine.Regular c.routine :=
  h.meets.regular fun p => ⟨c.converted ⟨0, liveMagic, p.tag, p⟩, fun id =>
    Guard.argument_settles ⟨rfl, rfl⟩ (c.apply_settles ⟨id, liveMagic, p.tag, p⟩)⟩

theorem Rendering.regular : Routine.Regular Rendering.routine := by
  refine Rendering.meets.regular fun p => ?_
  cases hp : rendered? p with
  | some text =>
    refine ⟨.ok (.string text), fun id => Guard.argument_settles ⟨rfl, rfl⟩ ?_⟩
    simp only [hp]
    exact Op.settles_box (.string text)
  | none =>
    refine ⟨.error (.unsupported name p.tag), fun id => Guard.argument_settles ⟨rfl, rfl⟩ ?_⟩
    simp only [hp]
    exact Op.settles_raise _

/-- Without extensions there are only the shipped routines. -/
theorem Runtime.lookup_cases {s s' : Session} {r : Runtime} (h : Runtime.boot [] [] s = (.ok r, s'))
    {name : String} {signature : Signature} {f : Routine} (hf : r.registry.lookup name signature = some f) :
    (∃ c ∈ Conversion.shipped, f = c.routine) ∨ f = Rendering.routine := by
  have hboot : Runtime.boot ([].map Roster.module) ([].map Roster.module) s = (.ok r, s') := h
  obtain ⟨m, hm, hx⟩ := boot_registered hboot hf
  exact Builtin.registered (hm.resolve_right List.not_mem_nil) hx

theorem Runtime.lookup_regular {s s' : Session} {r : Runtime} (h : Runtime.boot [] [] s = (.ok r, s'))
    {name : String} {signature : Signature} {f : Routine} (hf : r.registry.lookup name signature = some f) :
    f.Regular := by
  rcases Runtime.lookup_cases h hf with ⟨c, hc, rfl⟩ | rfl
  · simp only [Conversion.shipped, List.mem_cons, List.not_mem_nil, or_false] at hc
    rcases hc with rfl | rfl | rfl
    · exact Conversion.toUnsignedByte_exact.regular
    · exact Conversion.toUnsignedInt_exact.regular
    · exact Conversion.toChar_exact.regular
  · exact Rendering.regular

/-! ## The command -/

/-- What is left of a call, by what the library does with the same literal, name and
    signature in every session. The first thing that stops it decides. -/
inductive Command.Called (r : Runtime) (name : String) (signature : Signature) (literal : String) : Outcome → Prop
  | literalError (e : LiteralError) : (∀ s, ∃ s', Literal.read literal s = (.ok (.error e), s')) →
      Called r name signature literal ⟨1, "", "Error: " ++ e.message ++ "\n"⟩
  | literalFault (f : Fault) : (∀ s, ∃ s', Literal.read literal s = (.error f, s')) → f.kind = .rangeViolation →
      Called r name signature literal ⟨f.kind.exitStatus, "", f.diagnostic⟩
  | unknown : (∀ s, ∃ x s', Literal.read literal s = (.ok (.ok x), s')) → r.registry.lookup name signature = none →
      Called r name signature literal ⟨1, "", "Error: " ++ UnknownRoutine.message ⟨name, signature⟩ ++ "\n"⟩
  | fault (f : Fault) : (∀ s, ∃ x s' s'', Literal.read literal s = (.ok (.ok x), s') ∧
        r.call name signature [x] s' = (.error f, s'')) → f.kind ≠ .internalConsistency →
      Called r name signature literal ⟨f.kind.exitStatus, "", f.diagnostic⟩
  | value (tag : Tag) (display : String) : (∀ s, ∃ x s' y s'', Literal.read literal s = (.ok (.ok x), s') ∧
        r.call name signature [x] s' = (.ok (.ok y), s'') ∧ y.tag = tag ∧ y.display = display) →
      Called r name signature literal ⟨0, tag.name ++ " " ++ display ++ "\n", ""⟩

namespace Command

variable {r : Runtime} {name literal : String} {signature : Signature} {o : Outcome}

theorem Called.silent (h : Called r name signature literal o) (hstatus : o.status ≠ 0) :
    o.stdout = "" := by
  cases h with
  | value => exact absurd rfl hstatus
  | _ => rfl

theorem Called.status (h : Called r name signature literal o) :
    o.status = 0 ∨ o.status = 1 ∨ o.status = 252 ∨ o.status = 253 := by
  cases h with
  | literalError | unknown => exact Or.inr (Or.inl rfl)
  | literalFault f _ hkind => simp [hkind, FaultKind.exitStatus]
  | fault f _ hkind => cases hf : f.kind <;> simp_all [FaultKind.exitStatus]
  | value => exact Or.inl rfl

/-- In a quiet session, with routines that are regular. -/
theorem callRoutine_called (hr : ∀ f, r.registry.lookup name signature = some f → f.Regular) (literal : String)
    {s : Session} (hs : s.Quiet) : ∃ result s', callRoutine r name signature literal s = (result, s') ∧ s'.Quiet ∧
      Called r name signature literal (finish result "") := by
  unfold callRoutine
  rw [Op.bind_apply]
  rcases Literal.read_cases literal with ⟨e, hread⟩ | ⟨f, hkind, hread⟩ | ⟨p, hread⟩
  · rw [hread]
    exact ⟨_, s, rfl, hs, .literalError e fun s => ⟨s, hread s⟩⟩
  · rw [hread]
    exact ⟨_, _, rfl, hs.raised f, .literalFault f (fun s => ⟨_, hread s⟩) hkind⟩
  · rw [hread]
    cases hlookup : r.registry.lookup name signature with
    | none =>
      have hcall : ∀ x t, r.call name signature [x] t = (.ok (.error ⟨name, signature⟩), t) := by
        intro x t
        simp only [Runtime.call, Registry.call, hlookup]
        rfl
      simp only [Op.bind_apply, hcall]
      exact ⟨_, _, rfl, hs, .unknown (fun s => ⟨_, _, hread s⟩) hlookup⟩
    | some g =>
      obtain ⟨o, ho, hfault⟩ := hr g hlookup p
      have hcall : ∀ id t, r.call name signature [⟨id, liveMagic, p.tag, p⟩] t =
          (Except.ok <$> (t.settled o).1, (t.settled o).2) := by
        intro id t
        simp only [Runtime.call, Registry.call, hlookup]
        rw [map_eq_pure_bind, Op.bind_apply, ho id t]
        cases o <;> rfl
      simp only [Op.bind_apply, hcall]
      cases o with
      | ok q =>
        exact ⟨_, _, rfl, hs, .value q.tag (String.ofList q.text) fun s =>
          ⟨_, _, _, _, hread s, hcall _ _, rfl, rfl⟩⟩
      | error f =>
        exact ⟨_, _, rfl, hs.raised f, .fault f (fun s => ⟨_, _, _, hread s, hcall _ _⟩) (hfault f rfl)⟩

end Command

/-- A call from the command line, with no log asked for, does what the library does. -/
theorem call_agrees {arguments : List String} {env : Environment} {name : String} {signature : Signature}
    {literal : String} (h : env.parser arguments = some (.run false (.call name signature literal)))
    (henv : env.logSpec = .unset) :
    ∃ r o, (Runtime.boot [] []).Gives r ∧ runArguments arguments env = some o ∧
      Command.Called r name signature literal o ∧ (o.status ≠ 0 → o.stdout = "") ∧
      (o.status = 0 ∨ o.status = 1 ∨ o.status = 252 ∨ o.status = 253) := by
  obtain ⟨r, hr⟩ : ∃ r, (Runtime.boot [] []).Gives r := ⟨_, boot_alone⟩
  obtain ⟨s₀, hboot⟩ : ∃ s₀, Runtime.boot [] [] {} = (.ok r, s₀) := ⟨_, hr.apply {}⟩
  have hquiet : s₀.Quiet := by
    have := Runtime.boot_quiet
    rwa [hboot] at this
  have hregular : ∀ f, r.registry.lookup name signature = some f → f.Regular := fun _ => Runtime.lookup_regular hboot
  obtain ⟨result, s', hrun, hs', hcalled⟩ := Command.callRoutine_called hregular literal hquiet
  refine ⟨r, Command.finish result "", hr, ?_, hcalled, hcalled.silent, hcalled.status⟩
  rw [runArguments, h, Option.map_some]
  simp only [Command.run, Command.answer, Op.bind_apply, hboot, hrun, Command.quiet_text hs' henv]

/-- The literal is an integer, and it is the routine that refuses it. -/
theorem byte_call_out_of_range :
    runArguments ["call", "toUnsignedByte", "[^d,v,i]", "int:300"] {} =
      some ⟨252, "", "precondition not satisfied\n  in toUnsignedByte: 300 is not in 0..=255\n"⟩ := by
  have hread : Environment.parser {} ["call", "toUnsignedByte", "[^d,v,i]", "int:300"] =
      some (.run false (.call "toUnsignedByte" ⟨"[^d,v,i]"⟩ "int:300")) := by decide +kernel
  obtain ⟨r, o, hboot, hrun, hcalled, -⟩ := call_agrees hread rfl
  let x : Handle := ⟨0, liveMagic, .int, .int 300⟩
  let refused : Fault := .range "toUnsignedByte" "300 is not in 0..=255"
  have hliteral : Literal.read "int:300" {} = (.ok (.ok x), ⟨0, #[], 1⟩) := rfl
  have hcall : (r.call "toUnsignedByte" ⟨"[^d,v,i]"⟩ [x] ⟨0, #[], 1⟩).1 = .error refused := by
    have hlookup := (boot_shipped (hboot.apply {})).1 .toUnsignedByte List.mem_cons_self
    simp only [Runtime.call, Registry.call]
    rw [show r.registry.lookup "toUnsignedByte" ⟨"[^d,v,i]"⟩ = some _ from hlookup]
    rfl
  rw [hrun]
  cases hcalled with
  | literalError e herror =>
    obtain ⟨s', h⟩ := herror {}
    cases hliteral.symm.trans h
  | literalFault f hfault =>
    obtain ⟨s', h⟩ := hfault {}
    cases hliteral.symm.trans h
  | unknown _ hlookup =>
    cases hlookup.symm.trans ((boot_shipped (hboot.apply {})).1 .toUnsignedByte List.mem_cons_self)
  | fault f hfault =>
    obtain ⟨y, s', s'', h, hf⟩ := hfault {}
    cases hliteral.symm.trans h
    rw [hf] at hcall
    cases hcall
    rfl
  | value tag display hvalue =>
    obtain ⟨y, s', z, s'', h, hz, -⟩ := hvalue {}
    cases hliteral.symm.trans h
    rw [hz] at hcall
    cases hcall

end BoxedRuntime
