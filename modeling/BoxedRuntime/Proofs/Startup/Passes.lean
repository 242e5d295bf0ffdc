/-
  BoxedRuntime.Proofs.Startup.Passes — the two passes of a run, callback by callback.

  A run walks the chain twice. `Registered` says of the first walk which callbacks ran to
  their end, in which order, and which context each left to the next; `Asked` says of the
  second which verdicts the queries gave, all in one context. A run ends in one of three
  ways (`Ran`): both walks end, or the first stops at a register callback that faults, or
  the second stops at a query that faults. What is behind the stop never runs.

  Main statements:
  - `registerAll_cases`, `ask_cases`: a pass reaches its end or stops at its first fault.
  - `asked_of_queryPass`: the report of a query pass that reached its end.
  - `run_iff`: a run comes to exactly what one of the three endings says.
  - `linked_run`: of a chain made by any sequence of links, what it tells of itself and
    what a run of it comes to.
-/
import BoxedRuntime.Proofs.Startup.Walk

namespace BoxedRuntime

/-- In every session the operation comes to this value. -/
def Op.Gives {α : Type} (x : Op α) (a : α) : Prop := ∀ s, (x s).1 = .ok a

theorem Op.Gives.apply {α : Type} {x : Op α} {a : α} (h : x.Gives a) (s : Session) : x s = (.ok a, (x s).2) :=
  Prod.ext (h s) rfl

namespace Chain

variable {C : Type}

/-! ## The register pass -/

/-- The register callbacks ran in this order, each once and to its end, each in the context
    that the one before it left. -/
inductive Registered : List (Initializer C) → C × Session → C × Session → Prop
  | none (p : C × Session) : Registered [] p p
  | next {i : Initializer C} {is : List (Initializer C)} {context : C} {s : Session} {p q : C × Session} :
      i.register (context, s.write (registeringRecord i.name)) = (.ok (), p) → Registered is p q →
      Registered (i :: is) (context, s) q

theorem Registered.registerAll_append {is : List (Initializer C)} {p q : C × Session} (h : Registered is p q)
    (js : List (Initializer C)) : registerAll (is ++ js) p = registerAll js q := by
  induction h with
  | none => rfl
  | next hi _ ih => rw [List.cons_append, registerAll_cons_apply, hi, ← ih]

theorem Registered.registerAll {is : List (Initializer C)} {p q : C × Session} (h : Registered is p q) :
    registerAll is p = (.ok (), q) := by
  have := h.registerAll_append []
  rwa [List.append_nil] at this

theorem registerAll_stop {i : Initializer C} {context : C} {s : Session} {f : Fault} {p : C × Session}
    (h : i.register (context, s.write (registeringRecord i.name)) = (.error f, p)) (is : List (Initializer C)) :
    registerAll (i :: is) (context, s) = (.error f, p) := by
  rw [registerAll_cons_apply, h]

theorem registerAll_cases (is : List (Initializer C)) (p : C × Session) :
    (∃ q, Registered is p q) ∨
      ∃ before i after context s f q, is = before ++ i :: after ∧ Registered before p (context, s) ∧
        i.register (context, s.write (registeringRecord i.name)) = (.error f, q) := by
  induction is generalizing p with
  | nil => exact Or.inl ⟨p, .none p⟩
  | cons i is ih =>
    obtain ⟨context, s⟩ := p
    rcases hi : i.register (context, s.write (registeringRecord i.name)) with ⟨f | _, q⟩
    · exact Or.inr ⟨[], i, is, context, s, f, q, rfl, .none _, hi⟩
    · rcases ih q with ⟨r, hr⟩ | ⟨before, j, after, context', s', f, r, rfl, hbefore, hj⟩
      · exact Or.inl ⟨r, .next hi hr⟩
      · exact Or.inr ⟨i :: before, j, after, context', s', f, r, rfl, .next hi hbefore, hj⟩

/-- Callbacks that never fault all run. -/
theorem registerAll_ok {is : List (Initializer C)} (h : ∀ i ∈ is, ∀ p, ∃ q, i.register p = (.ok (), q))
    (p : C × Session) : ∃ q, registerAll is p = (.ok (), q) := by
  rcases registerAll_cases is p with ⟨q, hregistered⟩ | ⟨before, i, after, context, s, f, q, rfl, -, hi⟩
  · exact ⟨q, hregistered.registerAll⟩
  · obtain ⟨q', hq'⟩ := h i (List.mem_append_right before List.mem_cons_self)
      (context, s.write (registeringRecord i.name))
    cases hi.symm.trans hq'

/-! ## The query pass -/

/-- A complaint is noted in the log when it is made. -/
def noted (i : Initializer C) (s : Session) : Verdict → Session
  | .ok _ => s
  | .error message => s.write (failedRecord i.name message)

def complaint? (i : Initializer C) : Verdict → Option (String × String)
  | .ok _ => none
  | .error message => some (i.name, message)

/-- The complaints with the names of those who made them, in the order in which they were made. -/
def complaints (is : List (Initializer C)) (verdicts : List Verdict) : List (String × String) :=
  (is.zip verdicts).filterMap fun (i, v) => complaint? i v

/-- The queries were asked in this order, each once and in the same context, and gave these
    verdicts. -/
inductive Asked (context : C) : List (Initializer C) → Session → List Verdict → Session → Prop
  | none (s : Session) : Asked context [] s [] s
  | next {i : Initializer C} {is : List (Initializer C)} {s s₁ s₂ : Session} {v : Verdict} {vs : List Verdict} :
      i.query context s = (.ok v, s₁) → Asked context is (noted i s₁ v) vs s₂ →
      Asked context (i :: is) s (v :: vs) s₂

/-- One query of the pass, after those that led to the report. -/
def ask (context : C) (report : Report) (i : Initializer C) : Op Report := do
  match ← i.query context with
  | .ok () => return { report with queried := report.queried + 1 }
  | .error complaint =>
    Op.emit (failedRecord i.name complaint)
    return ⟨report.queried + 1, report.failures ++ [(i.name, complaint)]⟩

theorem queryPass_eq (is : List (Initializer C)) (context : C) :
    queryPass is context = is.foldlM (ask context) {} := rfl

theorem ask_ok {context : C} {i : Initializer C} {s s' : Session} {v : Verdict}
    (h : i.query context s = (.ok v, s')) (report : Report) :
    ask context report i s =
      (.ok ⟨report.queried + 1, report.failures ++ (complaint? i v).toList⟩, noted i s' v) := by
  rw [ask, Op.bind_apply, h]
  cases v with
  | ok _ => simp only [complaint?, Option.toList_none, List.append_nil]; rfl
  | error message => rfl

theorem ask_error {context : C} {i : Initializer C} {s s' : Session} {f : Fault}
    (h : i.query context s = (.error f, s')) (report : Report) : ask context report i s = (.error f, s') := by
  rw [ask, Op.bind_apply, h]

theorem Asked.foldlM_append {context : C} {is : List (Initializer C)} {s s' : Session} {vs : List Verdict}
    (h : Asked context is s vs s') (js : List (Initializer C)) (report : Report) :
    (is ++ js).foldlM (ask context) report s =
      js.foldlM (ask context) ⟨report.queried + is.length, report.failures ++ complaints is vs⟩ s' := by
  induction h generalizing report with
  | none => simp [complaints]
  | @next i is s s₁ s₂ v vs hv _ ih =>
    rw [List.cons_append, List.foldlM_cons, Op.bind_apply, ask_ok hv]
    show List.foldlM (ask context) _ (is ++ js) (noted i s₁ v) = _
    have hcomplaints : complaints (i :: is) (v :: vs) = (complaint? i v).toList ++ complaints is vs := by
      cases v <;> rfl
    rw [ih, hcomplaints, ← List.append_assoc, List.length_cons, Nat.add_assoc, Nat.add_comm 1]

theorem Asked.queryPass {context : C} {is : List (Initializer C)} {s s' : Session} {vs : List Verdict}
    (h : Asked context is s vs s') : queryPass is context s = (.ok ⟨is.length, complaints is vs⟩, s') := by
  have := h.foldlM_append [] {}
  rw [List.append_nil] at this
  rw [queryPass_eq, this, Nat.zero_add, List.nil_append]
  rfl

theorem Asked.queryPass_stop {context : C} {is : List (Initializer C)} {s s' s'' : Session} {vs : List Verdict}
    (h : Asked context is s vs s') {i : Initializer C} {f : Fault} (hi : i.query context s' = (.error f, s''))
    (js : List (Initializer C)) : Chain.queryPass (is ++ i :: js) context s = (.error f, s'') := by
  rw [queryPass_eq, h.foldlM_append, List.foldlM_cons, Op.bind_apply, ask_error hi]

theorem ask_cases (context : C) (is : List (Initializer C)) (s : Session) :
    (∃ vs s', Asked context is s vs s') ∨
      ∃ before i after vs s' f s'', is = before ++ i :: after ∧ Asked context before s vs s' ∧
        i.query context s' = (.error f, s'') := by
  induction is generalizing s with
  | nil => exact Or.inl ⟨[], s, .none s⟩
  | cons i is ih =>
    rcases hi : i.query context s with ⟨f | v, s₁⟩
    · exact Or.inr ⟨[], i, is, [], s, f, s₁, rfl, .none s, hi⟩
    · rcases ih (noted i s₁ v) with ⟨vs, s₂, hrest⟩ | ⟨before, j, after, vs, s₂, f, s₃, rfl, hbefore, hj⟩
      · exact Or.inl ⟨v :: vs, s₂, .next hi hrest⟩
      · exact Or.inr ⟨i :: before, j, after, v :: vs, s₂, f, s₃, rfl, .next hi hbefore, hj⟩

theorem Asked.length {context : C} {is : List (Initializer C)} {s s' : Session} {vs : List Verdict}
    (h : Asked context is s vs s') : vs.length = is.length := by
  induction h with
  | none => rfl
  | next _ _ ih => rw [List.length_cons, List.length_cons, ih]

theorem Asked.split {context : C} {is js : List (Initializer C)} {s s' : Session} {vs : List Verdict}
    (h : Asked context (is ++ js) s vs s') :
    ∃ vs₁ vs₂ s₁, vs = vs₁ ++ vs₂ ∧ Asked context is s vs₁ s₁ ∧ Asked context js s₁ vs₂ s' := by
  induction is generalizing s vs with
  | nil => exact ⟨[], vs, s, rfl, .none s, h⟩
  | cons i is ih =>
    cases h with
    | next hi hrest =>
      obtain ⟨vs₁, vs₂, s₁, rfl, hfirst, hsecond⟩ := ih hrest
      exact ⟨_ :: vs₁, vs₂, s₁, rfl, .next hi hfirst, hsecond⟩

/-- The verdict in a place is that of the module in the same place. -/
theorem Asked.verdict {context : C} {is : List (Initializer C)} {s s' : Session} {vs : List Verdict}
    (h : Asked context is s vs s') {n : Nat} {i : Initializer C} (hi : is[n]? = some i) :
    ∃ v t t', vs[n]? = some v ∧ i.query context t = (.ok v, t') := by
  induction h generalizing n with
  | none => cases hi
  | @next j is s s₁ s₂ v vs hv _ ih =>
    cases n with
    | zero =>
      obtain rfl : j = i := Option.some.inj hi
      exact ⟨v, s, s₁, rfl, hv⟩
    | succ n => exact ih hi

theorem complaints_append {is js : List (Initializer C)} {vs ws : List Verdict} (h : vs.length = is.length) :
    complaints (is ++ js) (vs ++ ws) = complaints is vs ++ complaints js ws := by
  unfold complaints
  rw [List.zip_append h.symm, List.filterMap_append]

theorem complaints_sublist (is : List (Initializer C)) (vs : List Verdict) :
    ((complaints is vs).map (·.1)).Sublist (is.map (·.name)) := by
  induction is generalizing vs with
  | nil => exact List.Sublist.refl _
  | cons i is ih =>
    cases vs with
    | nil => exact List.nil_sublist _
    | cons v vs =>
      cases v with
      | ok _ => exact (ih vs).cons i.name
      | error complaint => exact (ih vs).cons_cons i.name

/-- Who complains has said so when asked. -/
theorem Asked.of_mem_complaints {context : C} {is : List (Initializer C)} {s s' : Session} {vs : List Verdict}
    (h : Asked context is s vs s') {p : String × String} (hp : p ∈ complaints is vs) :
    ∃ i ∈ is, i.name = p.1 ∧ ∃ t t', i.query context t = (.ok (.error p.2), t') := by
  obtain ⟨⟨i, v⟩, hmem, hcomplaint⟩ := List.mem_filterMap.mp hp
  obtain ⟨n, hn⟩ := List.mem_iff_getElem?.mp hmem
  obtain ⟨hi, hv⟩ := List.getElem?_zip_eq_some.mp hn
  obtain ⟨v', t, t', hv', hquery⟩ := h.verdict hi
  obtain rfl : v = v' := Option.some.inj (hv.symm.trans hv')
  refine ⟨i, List.mem_of_getElem? hi, ?_⟩
  cases v with
  | ok _ => cases hcomplaint
  | error complaint =>
    cases hcomplaint
    exact ⟨rfl, t, t', hquery⟩

/-- The report of a pass that reached its end. -/
theorem asked_of_queryPass {context : C} {is : List (Initializer C)} {s s' : Session} {report : Report}
    (h : queryPass is context s = (.ok report, s')) :
    ∃ vs, Asked context is s vs s' ∧ report = ⟨is.length, complaints is vs⟩ := by
  rcases ask_cases context is s with ⟨vs, s₁, hasked⟩ | ⟨before, i, after, vs, s₁, f, s₂, rfl, hbefore, hi⟩
  · have := h.symm.trans hasked.queryPass
    cases this
    exact ⟨vs, hasked, rfl⟩
  · have := h.symm.trans (hbefore.queryPass_stop hi after)
    cases this

/-- Queries that never fault are all asked. -/
theorem exists_asked {context : C} {is : List (Initializer C)}
    (hq : ∀ i ∈ is, ∀ s, ∃ v s', i.query context s = (.ok v, s')) (s : Session) :
    ∃ vs s', Asked context is s vs s' := by
  rcases ask_cases context is s with hasked | ⟨before, i, after, vs, s₁, f, s₂, rfl, -, hi⟩
  · exact hasked
  · obtain ⟨v, s₃, hv⟩ := hq i (List.mem_append_right before List.mem_cons_self) s₁
    cases hi.symm.trans hv

/-- The complaints of queries that find the same in every session. -/
theorem Asked.complaints_of_gives {context : C} {is : List (Initializer C)} {s s' : Session} {vs : List Verdict}
    (h : Asked context is s vs s') {verdict : Initializer C → Verdict}
    (hverdict : ∀ i ∈ is, (i.query context).Gives (verdict i)) :
    complaints is vs = is.filterMap fun i => complaint? i (verdict i) := by
  induction h with
  | none => rfl
  | @next i is s s₁ s₂ v vs hv _ ih =>
    have hi : v = verdict i := by
      have := hverdict i List.mem_cons_self s
      rw [hv] at this
      exact Except.ok.inj this
    have hrest := ih fun j hj => hverdict j (List.mem_cons_of_mem i hj)
    rw [complaints] at hrest
    rw [complaints, List.zip_cons_cons, List.filterMap_cons, List.filterMap_cons, hrest, hi]

/-! ## The run -/

/-- The ways a run over these initializers, in this order, can end: with what, and which
    context it leaves. -/
inductive Ran (walk : List (Initializer C)) (start : C × Session) : Except Fault Report × C × Session → Prop
  /-- Every callback registers, every query answers in the context that they filled. -/
  | completed {context : C} {s s' : Session} {vs : List Verdict} : Registered walk start (context, s) →
      Asked context walk s vs s' → Ran walk start (.ok ⟨walk.length, complaints walk vs⟩, context, s')
  /-- The context is what the callbacks before this one and this one up to its fault made it. -/
  | registerFaulted {before after : List (Initializer C)} {i : Initializer C} {context : C} {s : Session} {f : Fault}
      {stop : C × Session} : walk = before ++ i :: after → Registered before start (context, s) →
      i.register (context, s.write (registeringRecord i.name)) = (.error f, stop) → Ran walk start (.error f, stop)
  /-- Every callback has registered, and the queries before this one have answered. -/
  | queryFaulted {before after : List (Initializer C)} {i : Initializer C} {context : C} {s s' s'' : Session}
      {vs : List Verdict} {f : Fault} : walk = before ++ i :: after → Registered walk start (context, s) →
      Asked context before s vs s' → i.query context s' = (.error f, s'') → Ran walk start (.error f, context, s'')

theorem Ran.run {c : Chain C} {start : C × Session} {r : Except Fault Report × C × Session}
    (h : Ran c.walk start r) : c.run start = r := by
  obtain ⟨context₀, s₀⟩ := start
  rw [run_apply]
  cases h with
  | completed hregistered hasked => rw [hregistered.registerAll]; simp only [hasked.queryPass]
  | registerFaulted hwalk hbefore hi => rw [hwalk, hbefore.registerAll_append, registerAll_stop hi]
  | queryFaulted hwalk hregistered hbefore hi =>
    rw [hregistered.registerAll]
    simp only [hwalk, hbefore.queryPass_stop hi]

theorem ran_run (c : Chain C) (start : C × Session) : Ran c.walk start (c.run start) := by
  suffices ∃ r, Ran c.walk start r by
    obtain ⟨r, h⟩ := this
    rwa [h.run]
  rcases registerAll_cases c.walk start with ⟨⟨context, s⟩, hregistered⟩ | ⟨_, _, _, _, _, _, _, hwalk, hbefore, hi⟩
  · rcases ask_cases context c.walk s with ⟨_, _, hasked⟩ | ⟨_, _, _, _, _, _, _, hwalk, hbefore, hi⟩
    · exact ⟨_, .completed hregistered hasked⟩
    · exact ⟨_, .queryFaulted hwalk hregistered hbefore hi⟩
  · exact ⟨_, .registerFaulted hwalk hbefore hi⟩

theorem run_iff {c : Chain C} {start : C × Session} {r : Except Fault Report × C × Session} :
    c.run start = r ↔ Ran c.walk start r :=
  ⟨fun h => h ▸ ran_run c start, Ran.run⟩

/-- A chain made by linking these initializers tells how many they are and who they are, and
    walks them from the last to the first. The links are counted as they are made; the
    count is the number of initializers that a walk meets. -/
theorem linked_run (is : List (Initializer C)) (s : Session) :
    ∃ c s', Chain.empty.linkAll is s = (.ok c, s') ∧
      c.length = is.length ∧ (c.isEmpty = true ↔ is = []) ∧
      c.names.length = is.length ∧ c.names = is.reverse.map (·.name) ∧
      (∀ name, c.contains name = true ↔ name ∈ c.names) ∧
      (∀ start ran p, c.registerPass start = (.ok ran, p) → ran = is.reverse ∧ Registered is.reverse start p) ∧
      ∀ (start : C × Session) (r : Except Fault Report × C × Session), c.run start = r ↔ Ran is.reverse start r := by
  refine ⟨⟨is.reverse, is.length⟩, _, linkAll_empty is s, rfl, ?_, ?_, rfl, ?_, ?_, fun start r => run_iff⟩
  · rw [isEmpty, beq_iff_eq, List.length_eq_zero_iff]
  · rw [names, List.length_map, List.length_reverse]
  · intro name
    simp only [contains, names, List.any_eq_true, List.mem_map, beq_iff_eq]
  · intro start ran p h
    rw [registerPass_apply] at h
    rcases registerAll_cases is.reverse start with ⟨q, hq⟩ | ⟨before, i, after, context, t, f, q, hwalk, hbefore, hi⟩
    · simp only [hq.registerAll] at h
      cases h
      exact ⟨rfl, hq⟩
    · simp only [hwalk, hbefore.registerAll_append, registerAll_stop hi] at h
      cases h

end Chain
end BoxedRuntime
