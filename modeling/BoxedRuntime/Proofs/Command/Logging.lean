/-
  BoxedRuntime.Proofs.Command.Logging — what the log cannot change.

  How much of a log is shown is decided by the verbose flag and the log specification, what
  a run does by the command. Every command is a script, so it does not matter whether a
  record is dropped when it is made or when the log is written: the command cannot tell.
  Two runs of one command end with the same status and the same output, and the complaint
  at the end of the standard error, if there is one, is the same. Before it stands what the
  library that writes the log has to say about the specification, and then those records
  of the one log that it shows.

  None of this depends on how the command lines were parsed, or on what the library does
  with a specification. The two runs may even have different libraries.

  Main statements:
  - `Command.scripted_answer`: every command is a script.
  - `Command.run_eq_streamed`: a run that writes each record when it is made.
  - `log_changes_nothing`: two runs of one command.
-/
import BoxedRuntime.Proofs.Command.Calling
import BoxedRuntime.Proofs.Startup.Scripts

namespace BoxedRuntime

/-! ## Commands as scripts -/

theorem Op.MakesLeaf.scripted {x : Op Handle} (h : x.MakesLeaf) : x.Scripted := by
  obtain ⟨o, ho, -⟩ := h
  exact .of_settles ho

theorem Literal.scripted_read (literal : String) : (read literal).Scripted := by
  rcases Literal.read_eq literal with ⟨e, hread⟩ | ⟨_, _, make, hmake, hread⟩
  · rw [hread]
    exact .pure _
  · rw [hread]
    exact (Literal.makesLeaf_value hmake).scripted.map _

/-- A call is a script if the routine is one on these arguments. -/
theorem Runtime.scripted_call {r : Runtime} {name : String} {signature : Signature} {args : List Handle}
    (h : ∀ f, r.registry.lookup name signature = some f → (f args).Scripted) :
    (r.call name signature args).Scripted := by
  unfold Runtime.call Registry.call
  cases hf : r.registry.lookup name signature with
  | none => exact .pure _
  | some f => exact (h f hf).map _

namespace Command

theorem scripted_callRoutine {r : Runtime} (hr : (Runtime.boot [] []).Gives r) (name : String) (signature : Signature)
    (literal : String) : (callRoutine r name signature literal).Scripted := by
  have hcall : ∀ x, (r.call name signature [x]).Scripted := by
    intro x
    refine Runtime.scripted_call fun f hf => ?_
    rcases Runtime.lookup_cases (hr.apply {}) hf with ⟨c, -, rfl⟩ | rfl
    · exact (c.makesLeaf_routine [x]).scripted
    · exact (Rendering.makesLeaf_routine [x]).scripted
  refine (Literal.scripted_read literal).bind fun o => ?_
  cases o with
  | error e => exact .pure _
  | ok x =>
    refine (hcall x).bind fun o => ?_
    cases o with
    | error e => exact .pure _
    | ok y => exact .pure _

theorem scripted_answer (c : Command) : c.answer.Scripted := by
  refine (Runtime.scripted_boot fun _ hm => absurd hm List.not_mem_nil).bind_of_gives boot_alone ?_
  cases c with
  | call name signature literal => exact scripted_callRoutine boot_alone name signature literal
  | _ => exact .pure _

/-! ## Writing the log while it is made -/

/-- Records that are not shown are never kept. -/
def streamed (p : Script (Except Fault Answer)) (l : Logging) : Outcome :=
  let (result, session) := p.runWith (.showing l.shows) {}
  finish result (String.join (l.notices.map (· ++ "\n")) ++ String.join (session.log.toList.mapIdx l.line))

theorem run_eq_streamed {p : Script (Except Fault Answer)} {c : Command} (hp : ∀ s, p.run s = c.answer s)
    (verbose : Bool) (env : Environment) : c.run verbose env = streamed p (logging verbose env) := by
  let shows := (logging verbose env).shows
  have hstart : Session.shown shows {} = {} := by simp [Session.shown]
  have hdropped : p.runWith (.showing shows) {} = ((c.answer {}).1, (c.answer {}).2.shown shows) := by
    have := p.runWith_showing shows {}
    rwa [hstart, hp] at this
  unfold run streamed
  rw [hdropped]
  simp only [Session.shown, Logging.text, Array.toList_filter]
  rfl

/-! ## Two runs -/

/-- How a command ends: its status, its output and what it says last. -/
inductive Ending : UInt32 → String → String → Prop
  | success (stdout : String) : Ending 0 stdout ""
  | failure (stdout message : String) : Ending 1 stdout ("Error: " ++ message ++ "\n")
  | fault (f : Fault) : Ending f.kind.exitStatus "" f.diagnostic

theorem finish_ends (result : Except Fault Answer) : ∃ status stdout said, Ending status stdout said ∧
    ∀ logText, finish result logText = ⟨status, stdout, logText ++ said⟩ := by
  rcases result with f | ⟨stdout, _ | message⟩
  · exact ⟨_, _, _, .fault f, fun _ => rfl⟩
  · exact ⟨_, _, _, .success stdout, fun logText => by rw [String.append_empty]; rfl⟩
  · refine ⟨_, _, _, .failure stdout message, fun logText => ?_⟩
    simp only [finish, String.append_assoc]

/-- Two runs of a command, of which only the log lines may differ. -/
structure Undisturbed (c : Command) (l l' : Logging) (o o' : Outcome) : Prop where
  status : o.status = o'.status
  stdout : o.stdout = o'.stdout
  /-- Before the same last words stand the log lines of the two, taken from one log. -/
  stderr : ∃ log said, Ending o.status o.stdout said ∧ o.stderr = l.text log ++ said ∧ o'.stderr = l'.text log ++ said
  /-- Both are runs of one script, in which a record is dropped when it is made. Whatever is
      dropped, the script gives the same, and counts and allocates the same. -/
  streamed : ∃ p : Script (Except Fault Answer), (∀ s, p.run s = c.answer s) ∧
    (∀ shows s, p.runWith (.showing shows) (s.shown shows) = ((c.answer s).1, (c.answer s).2.shown shows)) ∧
    o = streamed p l ∧ o' = streamed p l'

theorem run_undisturbed (c : Command) (verbose verbose' : Bool) (env env' : Environment) :
    Undisturbed c (logging verbose env) (logging verbose' env') (c.run verbose env) (c.run verbose' env') := by
  obtain ⟨status, stdout, said, hends, hfinish⟩ := finish_ends (c.answer {}).1
  have hrun : ∀ v e, c.run v e = ⟨status, stdout, (logging v e).text (c.answer {}).2.log.toList ++ said⟩ :=
    fun v e => hfinish _
  constructor
  case status => rw [hrun, hrun]
  case stdout => rw [hrun, hrun]
  case stderr =>
    rw [hrun, hrun]
    exact ⟨_, said, hends, rfl, rfl⟩
  case streamed =>
    obtain ⟨p, hp⟩ := c.scripted_answer
    refine ⟨p, hp, fun shows s => ?_, run_eq_streamed hp verbose env, run_eq_streamed hp verbose' env'⟩
    rw [p.runWith_showing shows s, hp s]

end Command

/-- Of two command lines that are accepted and ask for one command, neither the verbose flag
    nor the log specification makes a difference to what comes of it. -/
theorem log_changes_nothing {as as' : List String} {env env' : Environment} {verbose verbose' : Bool} {c : Command}
    (h : env.parser as = some (.run verbose c)) (h' : env'.parser as' = some (.run verbose' c)) :
    ∃ o o', runArguments as env = some o ∧ runArguments as' env' = some o' ∧
      c.Undisturbed (Command.logging verbose env) (Command.logging verbose' env') o o' := by
  refine ⟨_, _, ?_, ?_, c.run_undisturbed verbose verbose' env env'⟩
  · rw [runArguments, h]
    rfl
  · rw [runArguments, h']
    rfl

/-- A fault, without a log specification and with one of which a part makes no sense. The
    flag is given twice, once at the top and once among the operands. -/
theorem traced_fault_same :
    let as := ["call", "toUnsignedByte", "[^d,v,i]", "int:300"]
    let as' := ["-v", "call", "toUnsignedByte", "--verbose", "[^d,v,i]", "int:300"]
    let env' : Environment := { logSpec := .text "brisk_runtime=trace,x=y=z" }
    ∃ o o' text text', ∃ f : Fault, runArguments as {} = some o ∧ runArguments as' env' = some o' ∧
      o.status = 252 ∧ o'.status = 252 ∧ o.stdout = "" ∧ o'.stdout = "" ∧ f.kind = .rangeViolation ∧
      o.stderr = text ++ f.diagnostic ∧ o'.stderr = text' ++ f.diagnostic := by
  intro as as' env'
  let c : Command := .call "toUnsignedByte" ⟨"[^d,v,i]"⟩ "int:300"
  have h : Environment.parser {} as = some (.run false c) := by decide +kernel
  have h' : env'.parser as' = some (.run true c) := by decide +kernel
  obtain ⟨o, o', hrun, hrun', hundisturbed⟩ := log_changes_nothing h h'
  have hstatus : o.status = 252 := by
    have : (runArguments as {}).map (·.status) = some 252 := by decide +kernel
    rw [hrun] at this
    exact Option.some.inj this
  obtain ⟨log, said, hends, htext, htext'⟩ := hundisturbed.stderr
  have hfault : ∃ f : Fault, f.kind = .rangeViolation ∧ o.stdout = "" ∧ said = f.diagnostic := by
    rw [hstatus] at hends
    generalize hs : (252 : UInt32) = status, o.stdout = stdout at hends
    cases hends with
    | success => cases hs
    | failure => cases hs
    | fault f =>
      have hkind : f.kind = .rangeViolation := by
        cases hf : f.kind with
        | rangeViolation => rfl
        | internalConsistency | unsupportedType => rw [hf] at hs; cases hs
      exact ⟨f, hkind, rfl, rfl⟩
  obtain ⟨f, hkind, hstdout, rfl⟩ := hfault
  exact ⟨o, o', _, _, f, hrun, hrun', hstatus, hundisturbed.status ▸ hstatus, hstdout,
    hundisturbed.stdout ▸ hstdout, hkind, htext, htext'⟩

end BoxedRuntime
