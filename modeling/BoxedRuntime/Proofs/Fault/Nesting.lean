/-
  BoxedRuntime.Proofs.Fault.Nesting — counting the faults of a client.

  A client runs operations under `attempt`, looks at what came of each, and goes on. As
  long as it does nothing else, the count tells how many of them ended in a fault, after
  every one of them and at the end; a literal that is none or a routine that is not there
  is an answer and no fault.

  A client may also raise faults of its own, on the way or in answer to one that it caught,
  and be run under `attempt` itself. Then what leaves it, a value or a fault, says nothing
  of how many were raised. `Computation` is such a client, `raised` lists what it raises in
  a session: the faults caught inside, and the one that leaves last of all.

  A native routine may be such a client too. A call of one that catches faults of its own
  is not an operation that adds at most one (`caught_inside_counted`); it is a computation,
  and adds what the body of the routine raises.

  Main statements:
  - `Operation.accounted`: an operation of the runtime raises the fault that leaves it and
    no other, if what it calls does.
  - `Operation.observeAll_counts`: the counts that a client sees after each operation.
  - `Computation.ended`: a computation counts what it raises and ends by the last of it.
  - `Operation.call_computed`: a call raises what the body of the routine raises.
  - `faults_accounted`: all of it, and the calls of a booted runtime are among the
    operations, or the computations, if its modules see to it.
-/
import BoxedRuntime.Proofs.Fault.Accounting
import BoxedRuntime.Proofs.Startup.Queries

namespace BoxedRuntime

/-! ## Operations -/

inductive Operation where
  | make (m : Making)
  | check (x : Handle) (label : String)
  | checkPointer (p : Pointer Handle) (label : String)
  | checkArguments (args : List Handle) (expected : Nat) (label : String)
  | call (r : Runtime) (name : String) (signature : Signature) (args : List Handle)
  | boot (extensions extra : List Module)

/-- What an operation gives. The ordinary errors are among it. -/
inductive Answer where
  | made (result : Except LiteralError Handle)
  | checked
  | found (x : Handle)
  | called (result : Except UnknownRoutine Handle)
  | booted (r : Runtime)

namespace Operation

def run : Operation → Op Answer
  | make m => .made <$> m.run
  | check x label => (fun _ => .checked) <$> Guard.check x label
  | checkPointer p label => .found <$> Guard.checkPointer p label
  | checkArguments args expected label => (fun _ => .checked) <$> Guard.checkArguments args expected label
  | call r name signature args => .called <$> r.call name signature args
  | boot extensions extra => .booted <$> Runtime.boot extensions extra

/-- What it calls that is not of the runtime raises at most the fault that leaves it. -/
def Fair : Operation → Prop
  | call r name signature args => ∀ f, r.registry.lookup name signature = some f → (f args).Accounted
  | boot extensions extra => ∀ m ∈ extensions ++ extra, m.Accounted
  | _ => True

theorem accounted {o : Operation} (h : o.Fair) : o.run.Accounted := by
  cases o with
  | make m => exact m.accounted.map _
  | check x label => exact (Guard.accounted_check x label).map _
  | checkPointer p label => exact (Guard.accounted_checkPointer p label).map _
  | checkArguments args expected label => exact (Guard.accounted_checkArguments args expected label).map _
  | call r name signature args => exact (Runtime.accounted_call h).map _
  | boot extensions extra => exact (Runtime.accounted_boot h).map _

/-! ## One operation after the other -/

/-- The operation under `attempt`, and the count that it leaves. -/
def observed (o : Operation) : Op (Except Fault Answer × Nat) := do
  let r ← Op.attempt o.run
  let n ← Op.faultCount
  return (r, n)

def observeAll (os : List Operation) : Op (List (Except Fault Answer × Nat)) := os.mapM observed

def faulted : Except Fault Answer × Nat → Bool
  | (.ok _, _) => false
  | (.error _, _) => true

theorem observed_apply (o : Operation) (s : Session) :
    o.observed s = (.ok ((o.run s).1, (o.run s).2.faults), (o.run s).2) := rfl

theorem observeAll_cons {o : Operation} {os : List Operation} {s s' : Session} {seen : List (Except Fault Answer × Nat)}
    (h : observeAll os (o.run s).2 = (.ok seen, s')) :
    observeAll (o :: os) s = (.ok (((o.run s).1, (o.run s).2.faults) :: seen), s') := by
  have hrest : List.mapM observed os (o.run s).2 = (.ok seen, s') := h
  rw [observeAll, List.mapM_cons, Op.bind_apply, observed_apply]
  simp only [Op.bind_apply, hrest]
  rfl

/-- The operation adds one if it ended in a fault, to whatever is counted after it. -/
theorem observed_counts {o : Operation} (h : o.Fair) (s : Session) (rest : List (Except Fault Answer × Nat)) :
    (o.run s).2.faults + rest.countP faulted =
      s.faults + (((o.run s).1, (o.run s).2.faults) :: rest).countP faulted := by
  have hstep := (accounted h s).faults
  cases hr : (o.run s).1 with
  | ok a =>
    rw [hr] at hstep
    have hstep : (o.run s).2.faults = s.faults := hstep
    rw [List.countP_cons_of_neg Bool.false_ne_true, hstep]
  | error f =>
    rw [hr] at hstep
    have hstep : (o.run s).2.faults = s.faults + 1 := hstep
    rw [List.countP_cons_of_pos rfl, hstep]
    omega

theorem observeAll_counts {os : List Operation} (h : ∀ o ∈ os, o.Fair) (s : Session) :
    ∃ seen s', observeAll os s = (.ok seen, s') ∧ seen.length = os.length ∧
      (∀ i (hi : i < seen.length), seen[i].2 = s.faults + (seen.take (i + 1)).countP faulted) ∧
      s'.faults = s.faults + seen.countP faulted := by
  -- The counts are of one session, so the rest is taken from where the first operation left it.
  induction os generalizing s with
  | nil => exact ⟨[], s, rfl, rfl, nofun, rfl⟩
  | cons o os ih =>
    have hfirst := observed_counts (h o List.mem_cons_self) s
    obtain ⟨seen, s', hrun, hlength, hcounts, hcount⟩ := ih (fun o' ho => h o' (List.mem_cons_of_mem o ho)) (o.run s).2
    refine ⟨_, s', observeAll_cons hrun, congrArg (· + 1) hlength, fun i hi => ?_, hcount.trans (hfirst seen)⟩
    cases i with
    | zero => exact hfirst []
    | succ i => exact (hcounts i (Nat.lt_of_succ_lt_succ hi)).trans (hfirst (seen.take (i + 1)))

end Operation

/-! ## Computations -/

inductive Computation : Type → Type 1 where
  /-- An operation of the runtime, or a fault of the client's own. -/
  | operate {α : Type} (x : Op α) (accounted : x.Accounted) : Computation α
  | attempt {α : Type} (c : Computation α) : Computation (Except Fault α)
  | bind {α β : Type} (c : Computation α) (next : α → Computation β) : Computation β

namespace Computation

def run {α : Type} : Computation α → Op α
  | operate x _ => x
  | attempt c => Op.attempt c.run
  | bind c next => c.run >>= fun a => (next a).run

/-- The faults that are raised when the computation runs in the session, in their order. -/
def raised {α : Type} : Computation α → Session → List Fault
  | operate x _, s => leaving (x s).1
  | attempt c, s => c.raised s
  | bind c next, s => c.raised s ++
    match c.run s with
    | (.ok a, s') => (next a).raised s'
    | (.error _, _) => []

variable {α : Type}

theorem ended (c : Computation α) : ∀ s : Session, s.Ended (c.raised s) (c.run s).1 (c.run s).2 := by
  induction c with
  | operate x accounted => exact accounted
  | attempt c ih => exact fun s => .value (ih s).faults
  | bind c next ihc ihnext =>
    intro s
    have h := ihc s
    rw [run, raised, Op.bind_apply]
    rcases hrun : c.run s with ⟨f | a, s'⟩
    · -- What leaves the first part leaves the whole, so `next` raises nothing.
      rw [hrun] at h
      rw [List.append_nil]
      exact h.stop
    · -- The first part may have caught faults; they count although it gave a value.
      rw [hrun] at h
      exact (ihnext a s').after h.faults

/-- By the last fault that it raised, if by any. -/
theorem attempt_run {c : Computation α} {s : Session} {f : Fault} (hf : (c.run s).1 = .error f) :
    ∃ caught, ∃ t : Session, c.raised s = caught ++ [f] ∧ t.faults = s.faults + caught.length ∧
      c.attempt.run s = (.ok (.error f), t.raised f) := by
  have hended := c.ended s
  rw [run, Op.attempt_apply]
  rw [hf] at hended ⊢
  generalize c.raised s = raised at hended
  generalize (c.run s).2 = s' at hended
  cases hended with
  | @fault _ caught t hcount => exact ⟨caught, t, rfl, hcount, rfl⟩

/-- What is done with the value raises nothing. -/
theorem raised_bind_pure {β : Type} (c : Computation α) (g : α → β) (s : Session) :
    (c.bind fun a => .operate (pure (g a)) (.pure _)).raised s = c.raised s := by
  rw [raised]
  rcases c.run s with ⟨_ | _, _⟩ <;> exact List.append_nil _

end Computation

/-! ## Routines that are computations -/

/-- The routine runs operations and raises faults, under `attempt` or not. -/
def Routine.Computed (f : Routine) : Prop := ∀ args, ∃ c : Computation Handle, c.run = f args

theorem Routine.Accounted.computed {f : Routine} (h : f.Accounted) : f.Computed :=
  fun args => ⟨.operate (f args) (h args), rfl⟩

namespace Operation

variable {r : Runtime} {name : String} {signature : Signature} {args : List Handle}

theorem call_computed {f : Routine} (hf : r.registry.lookup name signature = some f) {c : Computation Handle}
    (hc : c.run = f args) :
    ∃ d : Computation Answer, d.run = (Operation.call r name signature args).run ∧ ∀ s, d.raised s = c.raised s := by
  refine ⟨c.bind fun y => .operate (pure (.called (.ok y))) (.pure _), ?_, c.raised_bind_pure _⟩
  simp only [Operation.run, Runtime.call, Registry.call, hf, Computation.run, hc, map_eq_pure_bind, bind_assoc,
    pure_bind]

theorem exists_computed (h : r.registry.Routines Routine.Computed) :
    ∃ d : Computation Answer, d.run = (Operation.call r name signature args).run := by
  cases hf : r.registry.lookup name signature with
  | none =>
    have hfair : (Operation.call r name signature args).Fair := fun f hf' => nomatch hf.symm.trans hf'
    exact ⟨.operate _ (accounted hfair), rfl⟩
  | some f =>
    obtain ⟨c, hc⟩ := h name signature f hf args
    obtain ⟨d, hd, -⟩ := call_computed hf hc
    exact ⟨d, hd⟩

end Operation

/-! ## Accounting -/

/-- Operations add one fault if they end in one, computations as many as they raise. A call
    is the one or the other by what the routine is. -/
theorem faults_accounted :
    (∀ o : Operation, o.Fair → o.run.Accounted) ∧
      (∀ (extensions extra : List Module) (s s' : Session) (r : Runtime),
        Runtime.boot extensions extra s = (.ok r, s') →
          ((∀ m ∈ extensions ++ extra, m.Keeps Routine.Accounted) →
            ∀ name signature args, (Operation.call r name signature args).Fair) ∧
          ((∀ m ∈ extensions ++ extra, m.Keeps Routine.Computed) →
            ∀ name signature args, ∃ d : Computation Answer, d.run = (Operation.call r name signature args).run)) ∧
      (∀ (os : List Operation) (s : Session), (∀ o ∈ os, o.Fair) →
        ∃ seen s', Operation.observeAll os s = (.ok seen, s') ∧ seen.length = os.length ∧
          (∀ i (hi : i < seen.length), seen[i].2 = s.faults + (seen.take (i + 1)).countP Operation.faulted) ∧
          s'.faults = s.faults + seen.countP Operation.faulted) ∧
      (∀ (r : Runtime) (name : String) (signature : Signature) (args : List Handle) (f : Routine)
          (c : Computation Handle), r.registry.lookup name signature = some f → c.run = f args →
        ∃ d : Computation Answer, d.run = (Operation.call r name signature args).run ∧ ∀ s, d.raised s = c.raised s) ∧
      ∀ (α : Type) (c : Computation α) (s : Session),
        (c.run s).2.faults = s.faults + (c.raised s).length ∧
          ∀ f, (c.run s).1 = .error f → ∃ caught, ∃ t : Session, c.raised s = caught ++ [f] ∧
            t.faults = s.faults + caught.length ∧ c.attempt.run s = (.ok (.error f), t.raised f) := by
  refine ⟨fun _ => Operation.accounted, ?_, fun _ s h => Operation.observeAll_counts h s,
    fun r name signature args f c hf hc => Operation.call_computed hf hc, ?_⟩
  · intro extensions extra s s' r hboot
    constructor
    · intro h name signature args f hf
      exact Runtime.boot_routines (fun c _ => c.accounted_routine) Rendering.accounted_routine h hboot name signature f
        hf args
    · intro h name signature args
      exact Operation.exists_computed (Runtime.boot_routines (fun c _ => c.accounted_routine.computed)
        Rendering.accounted_routine.computed h hboot)
  · intro α c s
    exact ⟨(c.ended s).faults, fun f => Computation.attempt_run⟩

/-- Four operations of which two end in a fault; and a client that gives up for a fault that
    it caught, which makes two although one leaves. As the body of a routine it makes two
    for each call. -/
theorem caught_faults_counted :
    let os : List Operation := [.make (.byte 300), .make (.literal "byte"),
      .call ⟨Registry.empty, [], {}⟩ "toChar" ⟨"[^c,v,i]"⟩ [], .checkPointer .null "entry"]
    let outOfRange : Fault := .range "box_byte" "300 is not in 0..=255"
    let gaveUp : Fault := .internal "client" "gave up"
    let client : Computation Handle := .bind (.attempt (.operate _ (Boxing.makesLeaf_scalar .byte 300).accounted)) fun
      | .ok x => .operate (pure x) (.pure x)
      | .error _ => .operate (Op.raise gaveUp) (.raise gaveUp)
    let routines := Registry.empty.insert "client" ⟨"[^i]"⟩ fun _ => client.run
    (Operation.boot [] []).run.Accounted ∧
      (∃ r, (Runtime.boot [] []).Gives r ∧ ∀ name signature args, (Operation.call r name signature args).Fair) ∧
      (∃ seen s', Operation.observeAll os {} = (.ok seen, s') ∧ seen.map (·.2) = [1, 1, 1, 2] ∧ s'.faults = 2) ∧
      client.raised {} = [outOfRange, gaveUp] ∧ (client.run {}).2.faults = 2 ∧
      (∃ t : Session, client.attempt.run {} = (.ok (.error gaveUp), t.raised gaveUp) ∧ t.faults = 1) ∧
      ((Operation.call ⟨routines, [], {}⟩ "client" ⟨"[^i]"⟩ []).run {}).2.faults = 2 := by
  intro os outOfRange gaveUp client routines
  obtain ⟨hoperation, hbooted, hsequence, hcall, hcomputation⟩ := faults_accounted
  have hos : ∀ o ∈ os, o.Fair := by
    simp only [os, List.mem_cons, List.not_mem_nil, or_false]
    rintro o (rfl | rfl | rfl | rfl)
    · trivial
    · trivial
    · exact nofun
    · trivial
  have hraised : client.raised {} = [outOfRange, gaveUp] := rfl
  refine ⟨hoperation (.boot [] []) (by simp [Operation.Fair]), ?_, ?_, hraised, (hcomputation _ client {}).1, ?_, ?_⟩
  · have hgives := boot_alone
    exact ⟨_, hgives, (hbooted [] [] {} _ _ (hgives.apply {})).1 (by simp)⟩
  · obtain ⟨seen, s', hrun, -, -, hcount⟩ := hsequence os {} hos
    refine ⟨seen, s', hrun, ?_, hcount.trans ?_⟩
    · cases hrun
      rfl
    · cases hrun
      rfl
  · obtain ⟨caught, t, hcaught, hcount, hrun⟩ := (hcomputation _ client {}).2 gaveUp rfl
    refine ⟨t, hrun, ?_⟩
    obtain rfl : [outOfRange] = caught := List.append_cancel_right (hraised.symm.trans hcaught)
    exact hcount
  · obtain ⟨d, hd, hdraised⟩ := hcall ⟨routines, [], {}⟩ "client" ⟨"[^i]"⟩ [] _ client rfl rfl
    rw [← hd, (hcomputation _ d {}).1, hdraised, hraised]
    rfl

/-- A routine that catches a fault of its own and gives a value. -/
def tamed : Routine := fun _ => Op.attempt (Boxing.byte 300) >>= fun _ => Boxing.int 0

def taming : Roster where
  name := "taming"
  registrations := [⟨⟨"tamed", ⟨"[^i]"⟩⟩, tamed⟩]

/-- The call of such a routine gives a value, and the count has grown by one. -/
theorem caught_inside_counted :
    ∃ r s, Runtime.boot [] [taming.module] {} = (.ok r, s) ∧
      ∃ y s', r.call "tamed" ⟨"[^i]"⟩ [] s = (.ok (.ok y), s') ∧ s'.faults = s.faults + 1 := by
  obtain ⟨r, s, hboot⟩ := boot_completes [] [taming] (by
    intro m hm registry s
    obtain rfl := List.mem_singleton.mp hm
    exact ⟨_, s, rfl⟩) {}
  have hlookup : r.registry.lookup "tamed" ⟨"[^i]"⟩ = some tamed := by
    rw [(boot_fill hboot).1, lookup_fill _ ⟨"tamed", ⟨"[^i]"⟩⟩, rosterOrder_nil]
    rfl
  refine ⟨r, s, hboot, ?_⟩
  rw [Runtime.call, Registry.call, hlookup]
  exact ⟨_, _, rfl, rfl⟩

end BoxedRuntime
