/-
  BoxedRuntime.Proofs.Startup.Queries — what the query pass of a boot finds.

  The queries are asked when every module has registered, so they all look at one and the
  same registry. The builtin modules register last and find what they registered. A
  module may ask for keys of others: it finds a key exactly if the key is there in the end.
  As registering adds keys and takes none away, that is so exactly if some linked module
  registered it, wherever the two stand, provided that callbacks do no more to the
  registry than register. One that puts an empty registry in the place of the one that it
  was given takes back what was registered before (`erased_key_missed`).

  What a module registers may depend on the registry that it finds and on how the rest of
  its callback goes. A `Registrar` is such a callback, step by step: the registrations
  are steps of their own, and nothing else touches the registry.

  Main statements:
  - `Registrar.run_registry`: a callback leaves the registry with what it registered, also
    if it faults.
  - `registerAll_registry`: so does the register pass.
  - `Builtin.convert_query`: what the query of the conversions makes of any registry.
  - `builtin_satisfied`: after a boot the builtin modules have nothing to complain of.
  - `boot_alone`: what boots without other modules is the same in every session.
  - `boot_queries`: the query pass of a completed boot.
-/
import BoxedRuntime.Proofs.Registry.FiniteMap
import BoxedRuntime.Proofs.Startup.Resolution

namespace BoxedRuntime

/-! ## Register callbacks, step by step -/

inductive Registrar : Type 1 where
  | done
  | register (key : RoutineKey) (routine : Routine) (rest : Registrar)
  /-- Whatever leaves the registry alone; it may read it, and it may fault. -/
  | other {α : Type} (x : Registry → Op α) (rest : α → Registrar)

namespace Registrar

def run : Registrar → Startup Registry Unit
  | done => pure ()
  | register k f rest => do
    Registry.register k.name k.signature f
    rest.run
  | other x rest => do
    let a ← Startup.reading x
    (rest a).run

/-- The registrations that it makes from here, to its end or to a fault. -/
def made : Registrar → Registry × Session → List Registration
  | done, _ => []
  | register k f rest, p => ⟨k, f⟩ :: rest.made (Registry.register k.name k.signature f p).2
  | other x rest, p =>
    match x p.1 p.2 with
    | (.ok a, s) => (rest a).made (p.1, s)
    | (.error _, _) => []

theorem run_registry (c : Registrar) : ∀ p : Registry × Session, (c.run p).2.1 = p.1.insertAll (c.made p) := by
  induction c with
  | done => exact fun _ => rfl
  | register k f rest ih =>
    intro p
    obtain ⟨registry, s⟩ := p
    rw [run, made, Startup.bind_apply, Registry.register_apply]
    exact ih _
  | other x rest ih =>
    intro p
    obtain ⟨registry, s⟩ := p
    rw [run, made, Startup.bind_apply]
    simp only [Startup.reading, ExceptT.mk]
    rcases x registry s with ⟨f | a, s'⟩
    · rfl
    · exact ih a (registry, s')

/-- The callback that makes these registrations and does nothing else. -/
def ofList : List Registration → Registrar
  | [] => done
  | x :: rest => register x.key x.routine (ofList rest)

theorem run_ofList (rs : List Registration) : (ofList rs).run = Registry.registerEach rs := by
  induction rs with
  | nil => rfl
  | cons x rest ih =>
    rw [ofList, run, ih]
    rfl

end Registrar

/-! ## The register pass -/

/-- What these modules register, one after the other. -/
def Chain.registrations (steps : Module → Registrar) : List Module → Registry × Session → List Registration
  | [], _ => []
  | m :: ms, (registry, s) =>
    let p := (registry, s.write (registeringRecord m.name))
    (steps m).made p ++ registrations steps ms ((steps m).run p).2

theorem Registry.insertAll_append (r : Registry) (rs ts : List Registration) :
    r.insertAll (rs ++ ts) = (r.insertAll rs).insertAll ts :=
  List.foldl_append

theorem registerAll_registry {steps : Module → Registrar} {ms : List Module}
    (hsteps : ∀ m ∈ ms, m.register = (steps m).run) {p q : Registry × Session}
    (h : Chain.registerAll ms p = (.ok (), q)) : q.1 = p.1.insertAll (Chain.registrations steps ms p) := by
  induction ms generalizing p with
  | nil => cases h; rfl
  | cons m ms ih =>
    obtain ⟨registry, s⟩ := p
    rw [Chain.registerAll_cons_apply, hsteps m List.mem_cons_self] at h
    have hmade := (steps m).run_registry (registry, s.write (Chain.registeringRecord m.name))
    rw [Chain.registrations, Registry.insertAll_append, ← hmade]
    rcases hrun : (steps m).run (registry, s.write (Chain.registeringRecord m.name)) with ⟨f | _, p'⟩
    · rw [hrun] at h
      cases h
    · rw [hrun] at h
      exact ih (fun n hn => hsteps n (List.mem_cons_of_mem m hn)) h

theorem contains_insertAll {rs : List Registration} {k : RoutineKey} :
    (Registry.empty.insertAll rs).contains k.name k.signature = true ↔ ∃ x ∈ rs, x.key = k := by
  rw [Registry.contains, Registry.lookup_empty_insertAll, Option.isSome_iff_ne_none, ne_eq,
    Registration.last?_eq_none_iff]
  simp

/-! ## The builtin modules -/

/-- The callback of a linked module, step by step: a builtin module makes its registrations
    in turn, any other module does what is given. -/
def Builtin.stepsOr (other : Module → Registrar) (m : Module) : Registrar :=
  match rosters.find? (·.name == m.name) with
  | some roster => .ofList roster.registrations
  | none => other m

theorem Builtin.stepsOr_roster (other : Module → Registrar) {m : Roster} (hm : m ∈ rosters) :
    stepsOr other m.module = .ofList m.registrations := by
  simp only [rosters, List.mem_cons, List.not_mem_nil, or_false] at hm
  rcases hm with rfl | rfl <;> rfl

theorem Builtin.register_eq_run (other : Module → Registrar) {m : Roster} (hm : m ∈ rosters) :
    m.module.register = (stepsOr other m.module).run := by
  rw [stepsOr_roster other hm, Registrar.run_ofList]
  rfl

section Verdicts

variable {α : Type} {f : α → Verdict} {as : List α}

theorem forM_eq_ok_iff : as.forM f = .ok () ↔ ∀ a ∈ as, f a = .ok () := by
  induction as with
  | nil => simp only [List.not_mem_nil, false_implies, implies_true, iff_true]; rfl
  | cons a as ih =>
    have hcons : (a :: as).forM f = f a >>= fun _ => as.forM f := rfl
    rw [List.forall_mem_cons, ← ih, hcons]
    cases f a with
    | ok _ => exact ⟨fun h => ⟨rfl, h⟩, And.right⟩
    | error _ => exact ⟨nofun, fun h => nomatch h.1⟩

/-- The first that complains is the only one that is heard. -/
theorem forM_eq_error_iff {complaint : String} : as.forM f = .error complaint ↔
    ∃ before a after, as = before ++ a :: after ∧ (∀ b ∈ before, f b = .ok ()) ∧ f a = .error complaint := by
  induction as with
  | nil => exact ⟨nofun, fun ⟨before, a, after, h, _⟩ => by simp at h⟩
  | cons a as ih =>
    have hcons : (a :: as).forM f = f a >>= fun _ => as.forM f := rfl
    rw [hcons]
    cases ha : f a with
    | error e =>
      constructor
      · rintro ⟨⟩
        exact ⟨[], a, as, rfl, nofun, ha⟩
      · rintro ⟨before, b, after, h, hbefore, hb⟩
        cases before with
        | nil => cases h; exact ha.symm.trans hb
        | cons c before =>
          cases h
          cases ha.symm.trans (hbefore a List.mem_cons_self)
    | ok u =>
      refine Iff.trans ih ⟨?_, ?_⟩
      · rintro ⟨before, b, after, rfl, hbefore, hb⟩
        exact ⟨a :: before, b, after, rfl, List.forall_mem_cons.mpr ⟨ha, hbefore⟩, hb⟩
      · rintro ⟨before, b, after, h, hbefore, hb⟩
        cases before with
        | nil =>
          cases h
          cases ha.symm.trans hb
        | cons c before =>
          cases h
          exact ⟨before, b, after, rfl, fun d hd => hbefore d (List.mem_cons_of_mem a hd), hb⟩

end Verdicts

namespace Builtin

variable (registry : Registry) (c : Conversion)

/-- What a table of conversions finds wrong with one of its rows: the signature first, and
    then that the key is not there. -/
theorem conversionVerdict_eq_ok_iff : conversionVerdict registry c = .ok () ↔
    c.signature.wellFormed = true ∧ registry.contains c.name c.signature = true := by
  unfold conversionVerdict
  split
  · simp_all
  · split <;> simp_all

theorem conversionVerdict_of_malformed (h : c.signature.wellFormed = false) :
    conversionVerdict registry c = .error (malformed c.name c.signature) := by
  simp [conversionVerdict, h]

theorem conversionVerdict_of_missing (h : c.signature.wellFormed = true)
    (hmissing : registry.contains c.name c.signature = false) :
    conversionVerdict registry c = .error (missing c.name c.signature) := by
  simp [conversionVerdict, h, hmissing]

theorem shipped_wellFormed : ∀ c ∈ Conversion.shipped, c.signature.wellFormed = true := by decide

/-- The query of `convert` on any registry: it is satisfied by one that has the shipped
    keys, and of any other it names the first key that is not there. -/
theorem convert_query :
    ((convert.query registry).Gives (.ok ()) ↔
      ∀ c ∈ Conversion.shipped, registry.contains c.name c.signature = true) ∧
    ∀ complaint, (convert.query registry).Gives (.error complaint) ↔
      ∃ before c after, Conversion.shipped = before ++ c :: after ∧
        (∀ d ∈ before, registry.contains d.name d.signature = true) ∧
        registry.contains c.name c.signature = false ∧ complaint = missing c.name c.signature := by
  have hgives : ∀ v, (convert.query registry).Gives v ↔ Conversion.shipped.forM (conversionVerdict registry) = v :=
    fun v => ⟨fun h => Except.ok.inj (h {}), fun h s => congrArg Except.ok h⟩
  have hok : ∀ c ∈ Conversion.shipped,
      (conversionVerdict registry c = .ok () ↔ registry.contains c.name c.signature = true) := fun c hc =>
    (conversionVerdict_eq_ok_iff registry c).trans (and_iff_right (shipped_wellFormed c hc))
  constructor
  · rw [hgives, forM_eq_ok_iff]
    exact forall₂_congr hok
  · intro complaint
    rw [hgives, forM_eq_error_iff]
    refine exists_congr fun before => exists_congr fun c => exists_congr fun after => and_congr_right fun hshipped => ?_
    have hmem : ∀ d ∈ before, d ∈ Conversion.shipped := fun d hd => hshipped ▸ List.mem_append_left _ hd
    have hc : c ∈ Conversion.shipped := hshipped ▸ List.mem_append_right before List.mem_cons_self
    refine and_congr (forall₂_congr fun d hd => hok d (hmem d hd)) ?_
    cases hcontains : registry.contains c.name c.signature with
    | true => simp [(hok c hc).mpr hcontains]
    | false =>
      rw [conversionVerdict_of_missing registry c (shipped_wellFormed c hc) hcontains]
      simp [eq_comm]

end Builtin

theorem builtin_satisfied {extensions extra : List Module} {s s' : Session} {r : Runtime}
    (h : Runtime.boot extensions extra s = (.ok r, s')) {m : Module} (hm : m ∈ Builtin.modules) :
    (m.query r.registry).Gives (.ok ()) := by
  obtain ⟨hshipped, hrendering⟩ := boot_shipped h
  simp only [Builtin.modules, List.mem_cons, List.not_mem_nil, or_false] at hm
  rcases hm with rfl | rfl
  · refine (Builtin.convert_query r.registry).1.mpr fun c hc => ?_
    rw [Registry.contains, hshipped c hc]
    rfl
  · intro t
    have hcontains : r.registry.contains Rendering.name Rendering.signature = true := by
      rw [Registry.contains, hrendering]
      rfl
    show Except.ok (if _ then _ else _) = _
    rw [if_pos hcontains]

/-- The runtime of the builtin modules alone. -/
theorem boot_alone : (Runtime.boot [] []).Gives ⟨fill Builtin.rosters, ["text", "convert"], ⟨2, []⟩⟩ := by
  intro s
  obtain ⟨r, s', h⟩ := boot_completes [] [] (fun _ hm => nomatch hm) s
  have hboot : Runtime.boot [] [] s = (.ok r, s') := h
  obtain ⟨hregistry, hnames⟩ := boot_fill h
  obtain ⟨-, s₁, s₂, -, hquery⟩ := Runtime.boot_ok hboot
  obtain ⟨vs, hasked, hreport⟩ := Chain.asked_of_queryPass hquery
  have horder : rosterOrder [] [] = Builtin.rosters := rosterOrder_nil []
  have hwalk : (Boot.linkOrder [] []).reverse = Builtin.modules.reverse := by
    rw [show Boot.linkOrder [] [] = _ from linkOrder_map [] [], horder, Builtin.rosters_module]
  rw [hwalk] at hasked hreport
  rw [hasked.complaints_of_gives fun m hm => builtin_satisfied hboot (List.mem_reverse.mp hm)] at hreport
  rw [horder] at hregistry hnames
  obtain ⟨registry, modules, report⟩ := r
  subst hregistry hnames hreport
  rw [hboot]
  rfl

/-! ## The query pass -/

/-- The modules that are not builtin, in the order in which they register. -/
def Boot.others (extensions extra : List Module) : List Module := (sortExtensions extensions ++ extra).reverse

theorem linkOrder_reverse (extensions extra : List Module) :
    (Boot.linkOrder extensions extra).reverse = Boot.others extensions extra ++ Builtin.modules.reverse := by
  rw [Boot.linkOrder, Boot.others, List.append_assoc, List.reverse_append]

theorem mem_others {extensions extra : List Module} {m : Module} :
    m ∈ Boot.others extensions extra ↔ m ∈ extensions ++ extra := by
  simp only [Boot.others, Boot.sortExtensions, List.mem_reverse, List.mem_append, List.mem_mergeSort]

/-- The query asks whether these keys are registered, and for nothing else. -/
def Initializer.Requires (m : Module) (keys : List RoutineKey) : Prop :=
  ∀ registry s, ∃ v s', m.query registry s = (.ok v, s') ∧
    (v = .ok () ↔ ∀ k ∈ keys, registry.contains k.name k.signature = true)

/-- What the query pass of a boot found, with the verdicts of the modules that are not
    builtin. -/
structure Boot.Queried (extensions extra : List Module) (s : Session) (r : Runtime) (verdicts : List Verdict) :
    Prop where
  queried : r.report.queried = r.modules.length
  builtin : ∀ m ∈ Builtin.modules, (m.query r.registry).Gives (.ok ())
  /-- Each of the others was asked once, in the order of registration and in the registry
      that all of them had filled. -/
  asked : ∃ t t', Chain.Asked r.registry (others extensions extra) t verdicts t'
  failures : r.report.failures = Chain.complaints (others extensions extra) verdicts
  order : (r.report.failures.map (·.1)).Sublist r.modules
  source : ∀ p ∈ r.report.failures, ∃ m ∈ extensions ++ extra, m.name = p.1 ∧
    ∃ t t', m.query r.registry t = (.ok (.error p.2), t')
  /-- A required key is missed exactly if it is not in the registry that was booted. -/
  missed : ∀ (n : Nat) (m : Module) (keys : List RoutineKey), (others extensions extra)[n]? = some m → m.Requires keys →
    ((∃ complaint, verdicts[n]? = some (.error complaint)) ↔
      ∃ k ∈ keys, r.registry.contains k.name k.signature = false)
  /-- Where the registry changes by registering only, that is so exactly if no linked module
      registered the key in this boot. -/
  requires : ∀ steps : Module → Registrar, (∀ m ∈ linkOrder extensions extra, m.register = (steps m).run) →
    ∀ (n : Nat) (m : Module) (keys : List RoutineKey), (others extensions extra)[n]? = some m → m.Requires keys →
      ((∃ complaint, verdicts[n]? = some (.error complaint)) ↔
        ∃ k ∈ keys, ∀ x ∈ Chain.registrations steps (linkOrder extensions extra).reverse
          (Registry.empty, opened extensions extra s), x.key ≠ k)

theorem requires_iff {m : Module} {keys : List RoutineKey} (hm : m.Requires keys) {registry : Registry}
    {t t' : Session} {v : Verdict} (hquery : m.query registry t = (.ok v, t')) :
    (∃ complaint, v = .error complaint) ↔ ∃ k ∈ keys, registry.contains k.name k.signature = false := by
  obtain ⟨w, t'', hw, hiff⟩ := hm registry t
  have hv : v = w := by
    injection hquery.symm.trans hw with hv
    exact Except.ok.inj hv
  have hmissing : (∃ k ∈ keys, registry.contains k.name k.signature = false) ↔ ¬ v = .ok () := by
    rw [hv, hiff]
    simp only [not_forall, exists_prop, Bool.not_eq_true]
  rw [hmissing]
  cases v with
  | ok _ => simp
  | error complaint => simp

theorem not_contains_insertAll {rs : List Registration} {k : RoutineKey} :
    (Registry.empty.insertAll rs).contains k.name k.signature = false ↔ ∀ x ∈ rs, x.key ≠ k := by
  rw [← Bool.not_eq_true, contains_insertAll]
  simp

/-- The query pass of a completed boot. -/
theorem boot_queries {extensions extra : List Module} {s s' : Session} {r : Runtime}
    (h : Runtime.boot extensions extra s = (.ok r, s')) :
    ∃ verdicts, Boot.Queried extensions extra s r verdicts := by
  obtain ⟨hnames, s₁, s₂, hreg, hquery⟩ := Runtime.boot_ok h
  obtain ⟨vs, hall, hreport⟩ := Chain.asked_of_queryPass hquery
  rw [linkOrder_reverse] at hall
  obtain ⟨verdicts, vs', t, rfl, hothers, hbuiltin⟩ := hall.split
  have hsatisfied : Chain.complaints Builtin.modules.reverse vs' = [] := by
    rw [hbuiltin.complaints_of_gives fun m hm => builtin_satisfied h (List.mem_reverse.mp hm)]
    rfl
  have hfailures : r.report.failures = Chain.complaints (Boot.others extensions extra) verdicts := by
    rw [hreport, linkOrder_reverse, Chain.complaints_append hothers.length, hsatisfied, List.append_nil]
  have hmissed : ∀ (n : Nat) (m : Module) (keys : List RoutineKey), (Boot.others extensions extra)[n]? = some m →
      m.Requires keys → ((∃ complaint, verdicts[n]? = some (.error complaint)) ↔
        ∃ k ∈ keys, r.registry.contains k.name k.signature = false) := by
    intro n m keys hm hkeys
    obtain ⟨v, t₁, t₂, hv, hasked⟩ := hothers.verdict hm
    rw [hv, ← requires_iff hkeys hasked]
    simp only [Option.some.injEq]
  refine ⟨verdicts, ?_, fun m hm => builtin_satisfied h hm, ⟨s₁, t, hothers⟩, hfailures, ?_, ?_, hmissed, ?_⟩
  · rw [hreport, hnames, List.length_reverse, List.length_reverse, List.length_map]
  · rw [hfailures, hnames, ← List.map_reverse, linkOrder_reverse, List.map_append]
    exact (Chain.complaints_sublist _ _).trans (List.sublist_append_left _ _)
  · intro p hp
    rw [hfailures] at hp
    obtain ⟨m, hm, hsaid⟩ := hothers.of_mem_complaints hp
    exact ⟨m, mem_others.mp hm, hsaid⟩
  · intro steps hsteps n m keys hm hkeys
    have hregistry := registerAll_registry (fun m hm => hsteps m (List.mem_reverse.mp hm)) hreg
    rw [hmissed n m keys hm hkeys, show r.registry = _ from hregistry]
    simp only [not_contains_insertAll]

/-- A module whose query asks for these keys. -/
def asking (name : String) (keys : List RoutineKey) (callback : Registrar) : Module where
  name := name
  register := callback.run
  query registry := pure (if keys.all fun k => registry.contains k.name k.signature then .ok ()
    else .error "a key is missing")

theorem asking_requires (name : String) (keys : List RoutineKey) (callback : Registrar) :
    (asking name keys callback).Requires keys := by
  intro registry s
  refine ⟨_, s, rfl, ?_⟩
  rw [← List.all_eq_true]
  by_cases h : (keys.all fun k => registry.contains k.name k.signature) = true
  · simp only [h, if_true]
  · simp only [h, if_false, Bool.false_eq_true, reduceCtorEq]

/-- Registers the routine if the key is not taken. -/
def Registrar.unlessKnown (k : RoutineKey) (f : Routine) : Registrar :=
  .other (fun registry => pure (registry.contains k.name k.signature)) fun known =>
    if known then .done else .register k f .done

theorem Registrar.unlessKnown_ok (k : RoutineKey) (f : Routine) (p : Registry × Session) :
    ∃ q, (unlessKnown k f).run p = (.ok (), q) := by
  obtain ⟨registry, s⟩ := p
  show ∃ q, (if registry.contains k.name k.signature = true then Registrar.done else _).run (registry, s) = _
  by_cases hknown : registry.contains k.name k.signature = true
  · rw [if_pos hknown]
    exact ⟨_, rfl⟩
  · rw [if_neg hknown, Registrar.run, Startup.bind_apply, Registry.register_apply]
    exact ⟨_, rfl⟩

/-- One module asks for a key of a module linked after it, another one also for a key that
    nobody registers. -/
theorem asking_modules_queried :
    let pick : RoutineKey := ⟨"pick", ⟨"[^i]"⟩⟩
    let lost : RoutineKey := ⟨"lost", ⟨"[^i]"⟩⟩
    let patient := asking "patient" [pick] .done
    let hungry := asking "hungry" [pick, lost] .done
    let provider := asking "provider" [] (.unlessKnown pick fun _ => Boxing.int 1)
    ∃ r s' verdicts, Runtime.boot [patient] [hungry, provider] {} = (.ok r, s') ∧
      Boot.Queried [patient] [hungry, provider] {} r verdicts ∧
      (∃ complaint, verdicts[1]? = some (.error complaint)) ∧
      ¬ ∃ complaint, verdicts[2]? = some (.error complaint) := by
  intro pick lost patient hungry provider
  let steps := Builtin.stepsOr fun m =>
    if m.name = "provider" then .unlessKnown pick fun _ => Boxing.int 1 else .done
  have horder : Boot.linkOrder [patient] [hungry, provider] =
      [Builtin.convertRoster.module, Builtin.textRoster.module, patient, hungry, provider] := by
    rw [linkOrder_singleton, ← Builtin.rosters_module]
    rfl
  have hothers : Boot.others [patient] [hungry, provider] = [provider, hungry, patient] := by
    rw [Boot.others, Boot.sortExtensions, List.mergeSort_singleton]
    rfl
  have hsteps : ∀ m ∈ Boot.linkOrder [patient] [hungry, provider], m.register = (steps m).run := by
    intro m hm
    rw [horder] at hm
    simp only [List.mem_cons, List.not_mem_nil, or_false] at hm
    rcases hm with rfl | rfl | rfl | rfl | rfl
    · exact Builtin.register_eq_run _ List.mem_cons_self
    · exact Builtin.register_eq_run _ (List.mem_cons_of_mem _ List.mem_cons_self)
    · rfl
    · rfl
    · rfl
  have hcompletes : ∃ r s', Runtime.boot [patient] [hungry, provider] {} = (.ok r, s') := by
    refine boot_completes_of ?_ ?_ {}
    all_goals
      intro m hm
      simp only [List.cons_append, List.nil_append, List.mem_cons, List.not_mem_nil, or_false] at hm
    · rcases hm with rfl | rfl | rfl
      · exact fun p => ⟨p, rfl⟩
      · exact fun p => ⟨p, rfl⟩
      · exact Registrar.unlessKnown_ok pick _
    · rcases hm with rfl | rfl | rfl <;> exact fun registry s => ⟨_, s, rfl⟩
  obtain ⟨r, s', hboot⟩ := hcompletes
  obtain ⟨verdicts, hqueried⟩ := boot_queries hboot
  refine ⟨r, s', verdicts, hboot, hqueried, ?_, ?_⟩
  · rw [hqueried.requires steps hsteps 1 hungry [pick, lost] (by rw [hothers]; rfl) (asking_requires _ _ _), horder]
    decide +kernel
  · rw [hqueried.requires steps hsteps 2 patient [pick] (by rw [hothers]; rfl) (asking_requires _ _ _), horder]
    decide +kernel

/-- Registers a key, and then puts an empty registry in the place of the one it was given. -/
def erasing (name : String) (k : RoutineKey) (f : Routine) : Module where
  name := name
  register := do
    Registry.register k.name k.signature f
    Startup.update fun _ => Registry.empty

/-- A key that a linked module registered, as the log says, and that the module which asks
    for it does not find. -/
theorem erased_key_missed :
    let pick : RoutineKey := ⟨"pick", ⟨"[^i]"⟩⟩
    let asker := asking "asker" [pick] .done
    asker.Requires [pick] ∧
      ∃ r s', Runtime.boot [] [asker, erasing "eraser" pick fun _ => Boxing.int 1] {} = (.ok r, s') ∧
        Registry.registrationRecord pick.name pick.signature ∈ s'.log.toList ∧
        r.report.failures = [("asker", "a key is missing")] := by
  intro pick asker
  refine ⟨asking_requires _ _ _, ?_⟩
  have hmissed : (match Runtime.boot [] [asker, erasing "eraser" pick fun _ => Boxing.int 1] {} with
      | (.ok r, s') => decide (Registry.registrationRecord pick.name pick.signature ∈ s'.log.toList ∧
          r.report.failures = [("asker", "a key is missing")])
      | _ => false) = true := by decide +kernel
  split at hmissed
  · exact ⟨_, _, ‹_›, of_decide_eq_true hmissed⟩
  · cases hmissed

end BoxedRuntime
