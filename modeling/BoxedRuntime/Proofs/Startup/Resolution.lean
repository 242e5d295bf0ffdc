/-
  BoxedRuntime.Proofs.Startup.Resolution — what a key resolves to after a boot.

  A `Roster` is a module whose register callback makes a fixed list of registrations.
  Three orders meet in a boot: modules register in the reverse of the link order, the
  extensions are linked in the stable order of their names, and within a module and
  across modules the last registration of a key wins. Together: a key belongs to the
  earliest module of the link order that registers it, and there to the last registration
  of it. The builtin modules are linked first, so nothing replaces what they register.

  Main statements:
  - `sortRosters_sorted`: extensions are linked in the stable order of their names.
  - `lookup_fill`: the rule for the registry that a link order fills.
  - `boot_shipped`: the shipped keys resolve to the shipped routines, whatever the other
    modules do while they register.
  - `boot_resolves`: the rule for the registry of a completed boot.
  - `boot_completes_of`, `boot_completes`: what can keep a boot from completing; of rosters
    only a query can.
-/
import BoxedRuntime.Proofs.Startup.Passes
import BoxedRuntime.Proofs.Startup.Registration

namespace BoxedRuntime

/-! ## Rosters -/

structure Roster where
  name : String
  registrations : List Registration
  query : Registry → Op Verdict := fun _ => pure (.ok ())

namespace Roster

def module (m : Roster) : Module where
  name := m.name
  register := Registry.registerEach m.registrations
  query := m.query

def Registers (m : Roster) (k : RoutineKey) : Prop := ∃ x ∈ m.registrations, x.key = k

theorem last?_eq_none_iff (m : Roster) (k : RoutineKey) :
    Registration.last? k m.registrations = none ↔ ¬ m.Registers k := by
  simp [Registration.last?_eq_none_iff, Registers]

end Roster

namespace Builtin

def convertRoster : Roster where
  name := "convert"
  registrations := Conversion.shipped.map fun c => ⟨⟨c.name, c.signature⟩, c.routine⟩
  query := convert.query

def textRoster : Roster where
  name := "text"
  registrations := [⟨⟨Rendering.name, Rendering.signature⟩, Rendering.routine⟩]
  query := text.query

/-- The builtin modules as rosters, in link order. -/
def rosters : List Roster := [convertRoster, textRoster]

theorem textRoster_module : textRoster.module = text := by
  have h : textRoster.module.register = text.register := bind_pure_unit
  show Initializer.mk "text" textRoster.module.register text.query = _
  rw [h]
  rfl

theorem rosters_module : rosters.map Roster.module = modules := by
  show [convertRoster.module, textRoster.module] = _
  rw [textRoster_module]
  rfl

theorem exists_roster {m : Module} (hm : m ∈ modules) : ∃ roster ∈ rosters, roster.module = m := by
  rw [← rosters_module] at hm
  exact List.mem_map.mp hm

end Builtin

/-! ## The link order -/

/-- In the order of the names, and those of one name as they were submitted. -/
structure SortedByName (submitted sorted : List Roster) : Prop where
  permuted : sorted.Perm submitted
  ordered : sorted.Pairwise fun a b => a.name ≤ b.name
  stable : ∀ name, sorted.filter (·.name = name) = submitted.filter (·.name = name)

def sortRosters (submitted : List Roster) : List Roster :=
  submitted.mergeSort fun a b => decide (a.name ≤ b.name)

theorem sortExtensions_map (submitted : List Roster) :
    Boot.sortExtensions (submitted.map Roster.module) = (sortRosters submitted).map Roster.module :=
  (List.map_mergeSort (f := Roster.module) fun _ _ _ _ => rfl).symm

theorem nameOrder_trans {α : Type} (name : α → String) (a b c : α) :
    decide (name a ≤ name b) → decide (name b ≤ name c) → decide (name a ≤ name c) := by
  intro hab hbc
  simp only [decide_eq_true_eq] at hab hbc ⊢
  exact String.le_trans hab hbc

theorem nameOrder_total {α : Type} (name : α → String) (a b : α) :
    decide (name a ≤ name b) || decide (name b ≤ name a) := by
  simpa using String.le_total (name a) (name b)

theorem sorted_by_name {α : Type} (name : α → String) (xs : List α) :
    (xs.mergeSort fun a b => decide (name a ≤ name b)).Pairwise fun a b => name a ≤ name b :=
  (List.pairwise_mergeSort (nameOrder_trans name) (nameOrder_total name) xs).imp fun h => by simpa using h

theorem sortRosters_sorted (submitted : List Roster) : SortedByName submitted (sortRosters submitted) := by
  have perm : (sortRosters submitted).Perm submitted := List.mergeSort_perm _ _
  refine ⟨perm, sorted_by_name Roster.name submitted, ?_⟩
  intro name
  -- Those of one name are in order before the sort, so the sort keeps them as a sublist.
  have same : (submitted.filter (·.name = name)).Pairwise fun a b => decide (a.name ≤ b.name) := by
    refine List.pairwise_of_forall_mem_list fun a ha b hb => ?_
    have ha := (List.mem_filter.mp ha).2
    have hb := (List.mem_filter.mp hb).2
    simp only [decide_eq_true_eq] at ha hb ⊢
    exact (ha.trans hb.symm) ▸ String.le_refl a.name
  have kept := (List.sublist_mergeSort (nameOrder_trans Roster.name) (nameOrder_total Roster.name) same
    List.filter_sublist).filter (·.name = name)
  simp only [List.filter_filter, Bool.and_self] at kept
  exact (kept.eq_of_length (perm.filter _).length_eq.symm).symm

/-- What is linked, in link order. -/
def rosterOrder (extensions extra : List Roster) : List Roster :=
  Builtin.rosters ++ sortRosters extensions ++ extra

theorem linkOrder_map (extensions extra : List Roster) :
    Boot.linkOrder (extensions.map Roster.module) (extra.map Roster.module) =
      (rosterOrder extensions extra).map Roster.module := by
  simp only [Boot.linkOrder, rosterOrder, sortExtensions_map, ← Builtin.rosters_module, List.map_append]

theorem rosterOrder_nil (extra : List Roster) : rosterOrder [] extra = Builtin.rosters ++ extra := by
  rw [rosterOrder, sortRosters, List.mergeSort_nil, List.append_nil]

/-- One extension needs no sort. -/
theorem linkOrder_singleton (m : Module) (extra : List Module) :
    Boot.linkOrder [m] extra = Builtin.modules ++ m :: extra := by
  rw [Boot.linkOrder, Boot.sortExtensions, List.mergeSort_singleton, List.append_assoc, List.singleton_append]

/-! ## The registry that a link order fills -/

/-- Each module's registrations over those of the modules linked after it. -/
def fill (order : List Roster) : Registry :=
  order.foldr (fun m r => r.insertAll m.registrations) Registry.empty

/-- The last registration of the key in the first roster that registers it. -/
def resolve? (order : List Roster) (k : RoutineKey) : Option Routine :=
  order.findSome? fun m => Registration.last? k m.registrations

theorem lookup_fill (order : List Roster) (k : RoutineKey) :
    (fill order).lookup k.name k.signature = resolve? order k := by
  induction order with
  | nil => rfl
  | cons m order ih =>
    show ((fill order).insertAll m.registrations).lookup k.name k.signature = _
    rw [Registry.lookup_insertAll, ih, resolve?, resolve?, List.findSome?_cons]
    cases Registration.last? k m.registrations <;> rfl

theorem registerAll_rosters (walk : List Roster) : ∀ (r : Registry) (s : Session),
    ∃ s', Chain.registerAll (walk.map Roster.module) (r, s) =
      (.ok (), walk.foldl (fun r m => r.insertAll m.registrations) r, s') := by
  induction walk with
  | nil => intro r s; exact ⟨s, rfl⟩
  | cons m walk ih =>
    intro r s
    obtain ⟨s₁, h₁⟩ := Registry.registerEach_apply m.registrations r
      (s.write (Chain.registeringRecord m.name))
    obtain ⟨s₂, h₂⟩ := ih (r.insertAll m.registrations) s₁
    refine ⟨s₂, ?_⟩
    rw [List.map_cons, Chain.registerAll_cons_apply]
    simp only [Roster.module, h₁]
    exact h₂

theorem registerAll_reverse (order : List Roster) (s : Session) :
    ∃ s', Chain.registerAll (order.map Roster.module).reverse (Registry.empty, s) = (.ok (), fill order, s') := by
  obtain ⟨s', h⟩ := registerAll_rosters order.reverse Registry.empty s
  refine ⟨s', ?_⟩
  rw [← List.map_reverse, h, List.foldl_reverse]
  rfl

/-! ## The shipped keys -/

theorem lookup_shipped {c : Conversion} (hc : c ∈ Conversion.shipped) (r : Registry) :
    (r.insertAll Builtin.convertRoster.registrations).lookup c.name c.signature = some c.routine := by
  rw [Registry.lookup_insertAll _ ⟨c.name, c.signature⟩]
  simp only [Conversion.shipped, List.mem_cons, List.not_mem_nil, or_false] at hc
  rcases hc with rfl | rfl | rfl <;> rfl

theorem lookup_rendering (r : Registry) :
    ((r.insertAll Builtin.textRoster.registrations).insertAll Builtin.convertRoster.registrations).lookup
      Rendering.name Rendering.signature = some Rendering.routine := by
  rw [Registry.lookup_insertAll _ ⟨Rendering.name, Rendering.signature⟩,
    Registry.lookup_insertAll _ ⟨Rendering.name, Rendering.signature⟩]
  rfl

/-- The builtin modules register last, so no module can take their keys from them. -/
theorem boot_shipped {extensions extra : List Module} {s s' : Session} {r : Runtime}
    (h : Runtime.boot extensions extra s = (.ok r, s')) :
    (∀ c ∈ Conversion.shipped, r.registry.lookup c.name c.signature = some c.routine) ∧
      r.registry.lookup Rendering.name Rendering.signature = some Rendering.routine := by
  obtain ⟨-, s₂, -, hreg, -⟩ := Runtime.boot_ok h
  rw [Boot.linkOrder, List.append_assoc, List.reverse_append, Chain.registerAll_append, Startup.bind_apply] at hreg
  rcases hothers : Chain.registerAll (Boot.sortExtensions extensions ++ extra).reverse
      (Registry.empty, Boot.opened extensions extra s)
    with ⟨_ | _, r₀, s₀⟩
  · rw [hothers] at hreg
    cases hreg
  · rw [hothers, ← Builtin.rosters_module, ← List.map_reverse] at hreg
    obtain ⟨s₃, hbuiltin⟩ := registerAll_rosters Builtin.rosters.reverse r₀ s₀
    have hr : r.registry =
        (r₀.insertAll Builtin.textRoster.registrations).insertAll Builtin.convertRoster.registrations := by
      have := hreg.symm.trans hbuiltin
      injection this with _ this
      injection this with this _
    rw [hr]
    exact ⟨fun c hc => lookup_shipped hc _, lookup_rendering r₀⟩

/-! ## Resolution -/

/-- The routine is the one of the last registration of the key in the earliest roster
    that registers it. -/
def Resolves (order : List Roster) (k : RoutineKey) (f : Routine) : Prop :=
  ∃ earlier m later, order = earlier ++ m :: later ∧ (∀ l ∈ earlier, ¬ l.Registers k) ∧
    ∃ before after, m.registrations = before ++ ⟨k, f⟩ :: after ∧ ∀ x ∈ after, x.key ≠ k

theorem resolve?_eq_some_iff {order : List Roster} {k : RoutineKey} {f : Routine} :
    resolve? order k = some f ↔ Resolves order k f := by
  simp only [resolve?, List.findSome?_eq_some_iff, Registration.last?_eq_some_iff, Roster.last?_eq_none_iff,
    Resolves]
  constructor
  · intro ⟨earlier, m, later, ho, hm, he⟩
    exact ⟨earlier, m, later, ho, he, hm⟩
  · intro ⟨earlier, m, later, ho, he, hm⟩
    exact ⟨earlier, m, later, ho, hm, he⟩

theorem resolve?_eq_none_iff {order : List Roster} {k : RoutineKey} :
    resolve? order k = none ↔ ∀ m ∈ order, ¬ m.Registers k := by
  simp only [resolve?, List.findSome?_eq_none_iff, Roster.last?_eq_none_iff]

theorem boot_fill {extensions extra : List Roster} {s s' : Session} {r : Runtime}
    (h : Runtime.boot (extensions.map Roster.module) (extra.map Roster.module) s = (.ok r, s')) :
    r.registry = fill (rosterOrder extensions extra) ∧
      r.modules = ((rosterOrder extensions extra).map (·.name)).reverse := by
  obtain ⟨hnames, s₂, -, hreg, -⟩ := Runtime.boot_ok h
  rw [linkOrder_map] at hnames hreg
  obtain ⟨s₃, hfill⟩ := registerAll_reverse (rosterOrder extensions extra)
    (Boot.opened (extensions.map Roster.module) (extra.map Roster.module) s)
  constructor
  · injection hreg.symm.trans hfill with _ this
    injection this with this _
  · rw [hnames, List.map_map]
    rfl

/-- What a key resolves to, some linked roster registered. -/
theorem boot_registered {extensions extra : List Roster} {s s' : Session} {r : Runtime}
    (h : Runtime.boot (extensions.map Roster.module) (extra.map Roster.module) s = (.ok r, s'))
    {name : String} {signature : Signature} {f : Routine} (hf : r.registry.lookup name signature = some f) :
    ∃ m, (m ∈ Builtin.rosters ∨ m ∈ extensions ++ extra) ∧ ⟨⟨name, signature⟩, f⟩ ∈ m.registrations := by
  rw [(boot_fill h).1, lookup_fill _ ⟨name, signature⟩, resolve?_eq_some_iff] at hf
  obtain ⟨earlier, m, later, horder, -, before, after, hm, -⟩ := hf
  have hmem : m ∈ rosterOrder extensions extra := horder ▸ List.mem_append_right earlier List.mem_cons_self
  refine ⟨m, ?_, hm ▸ List.mem_append_right before List.mem_cons_self⟩
  simp only [rosterOrder, List.mem_append, (sortRosters_sorted extensions).permuted.mem_iff, or_assoc] at hmem
  rwa [List.mem_append]

theorem Builtin.registered {m : Roster} (hm : m ∈ rosters) {x : Registration} (hx : x ∈ m.registrations) :
    (∃ c ∈ Conversion.shipped, x.routine = c.routine) ∨ x.routine = Rendering.routine := by
  simp only [rosters, List.mem_cons, List.not_mem_nil, or_false] at hm
  rcases hm with rfl | rfl
  · obtain ⟨c, hc, rfl⟩ := List.mem_map.mp hx
    exact Or.inl ⟨c, hc, rfl⟩
  · rw [List.mem_singleton.mp hx]
    exact Or.inr rfl

/-! ## Completion -/

theorem mem_linkOrder {extensions extra : List Module} {m : Module} :
    m ∈ Boot.linkOrder extensions extra ↔ m ∈ Builtin.modules ∨ m ∈ extensions ++ extra := by
  simp only [Boot.linkOrder, Boot.sortExtensions, List.mem_append, List.mem_mergeSort, or_assoc]

theorem Roster.register_ok (m : Roster) (p : Registry × Session) : ∃ q, m.module.register p = (.ok (), q) := by
  obtain ⟨s', h⟩ := Registry.registerEach_apply m.registrations p.1 p.2
  exact ⟨_, h⟩

theorem Builtin.register_ok {m : Module} (hm : m ∈ Builtin.modules) (p : Registry × Session) :
    ∃ q, m.register p = (.ok (), q) := by
  obtain ⟨roster, -, rfl⟩ := Builtin.exists_roster hm
  exact roster.register_ok p

theorem Builtin.query_gives {m : Module} (hm : m ∈ Builtin.modules) (registry : Registry) :
    ∃ v, (m.query registry).Gives v := by
  simp only [Builtin.modules, List.mem_cons, List.not_mem_nil, or_false] at hm
  rcases hm with rfl | rfl <;> exact ⟨_, fun _ => rfl⟩

/-- The builtin modules do not fault, so only another module can keep a boot from completing. -/
theorem boot_completes_of {extensions extra : List Module}
    (hreg : ∀ m ∈ extensions ++ extra, ∀ p, ∃ q, m.register p = (.ok (), q))
    (hq : ∀ m ∈ extensions ++ extra, ∀ registry s, ∃ v s', m.query registry s = (.ok v, s')) (s : Session) :
    ∃ r s', Runtime.boot extensions extra s = (.ok r, s') := by
  have hlinked : ∀ m ∈ (Boot.linkOrder extensions extra).reverse, m ∈ Builtin.modules ∨ m ∈ extensions ++ extra :=
    fun m hm => mem_linkOrder.mp (List.mem_reverse.mp hm)
  obtain ⟨⟨registry, s₁⟩, hregister⟩ : ∃ q, Chain.registerAll (Boot.linkOrder extensions extra).reverse
      (Registry.empty, Boot.opened extensions extra s) = (.ok (), q) :=
    Chain.registerAll_ok (fun m hm => (hlinked m hm).elim Builtin.register_ok (hreg m)) _
  have hquery : ∀ m ∈ (Boot.linkOrder extensions extra).reverse, ∀ s, ∃ v s', m.query registry s = (.ok v, s') := by
    intro m hm s
    rcases hlinked m hm with hm | hm
    · obtain ⟨v, hv⟩ := Builtin.query_gives hm registry
      exact ⟨v, _, hv.apply s⟩
    · exact hq m hm registry s
  obtain ⟨vs, s₂, hasked⟩ := Chain.exists_asked hquery s₁
  exact Runtime.boot_of_passes hregister hasked.queryPass

/-- Registrations never fault, so a boot of rosters whose queries do not fault completes. -/
theorem boot_completes (extensions extra : List Roster)
    (hq : ∀ m ∈ extensions ++ extra, ∀ registry s, ∃ v s', m.query registry s = (.ok v, s')) (s : Session) :
    ∃ r s', Runtime.boot (extensions.map Roster.module) (extra.map Roster.module) s = (.ok r, s') := by
  refine boot_completes_of ?_ ?_ s
  all_goals
    intro m hm
    rw [← List.map_append] at hm
    obtain ⟨roster, hroster, rfl⟩ := List.mem_map.mp hm
  · exact roster.register_ok
  · exact hq roster hroster

/-! ## The rule -/

/-- After a completed boot a key resolves to its last registration in the earliest module
    of the link order that registers it: the builtin modules, the extensions in the
    stable order of their names, the extra modules. The module names are that order
    reversed. -/
theorem boot_resolves (extensions extra : List Roster) {s s' : Session} {r : Runtime}
    (h : Runtime.boot (extensions.map Roster.module) (extra.map Roster.module) s = (.ok r, s')) :
    ∃ sorted, SortedByName extensions sorted ∧
      (∀ name signature f, r.registry.lookup name signature = some f ↔
        Resolves (Builtin.rosters ++ sorted ++ extra) ⟨name, signature⟩ f) ∧
      (∀ name signature, r.registry.lookup name signature = none ↔
        ∀ m ∈ Builtin.rosters ++ sorted ++ extra, ¬ m.Registers ⟨name, signature⟩) ∧
      (∀ c ∈ Conversion.shipped, r.registry.lookup c.name c.signature = some c.routine) ∧
      r.registry.lookup Rendering.name Rendering.signature = some Rendering.routine ∧
      r.modules = ((Builtin.rosters ++ sorted ++ extra).map (·.name)).reverse := by
  obtain ⟨hreg, hnames⟩ := boot_fill h
  obtain ⟨hshipped, hrendering⟩ := boot_shipped h
  refine ⟨sortRosters extensions, sortRosters_sorted extensions, ?_, ?_, hshipped, hrendering, hnames⟩
  · intro name signature f
    rw [hreg, lookup_fill _ ⟨name, signature⟩]
    exact resolve?_eq_some_iff
  · intro name signature
    rw [hreg, lookup_fill _ ⟨name, signature⟩]
    exact resolve?_eq_none_iff

/-- A module of a builtin module's name that registers a shipped key, and another key twice. -/
def impostor : Roster where
  name := Builtin.convertRoster.name
  registrations := [⟨⟨"toUnsignedByte", ⟨"[^d,v,i]"⟩⟩, fun _ => Boxing.byte 0⟩,
    ⟨⟨"pick", ⟨"[^i]"⟩⟩, fun _ => Boxing.int 1⟩, ⟨⟨"pick", ⟨"[^i]"⟩⟩, fun _ => Boxing.int 2⟩]

/-- A module that registers a key of the impostor's. -/
def latecomer : Roster where
  name := "late"
  registrations := [⟨⟨"pick", ⟨"[^i]"⟩⟩, fun _ => Boxing.int 3⟩]

/-- The impostor keeps its second registration against a module linked later, and gets
    nothing of the builtin modules'. -/
theorem impostor_resolution :
    ∃ r s', Runtime.boot ([impostor].map Roster.module) ([latecomer].map Roster.module) {} = (.ok r, s') ∧
      r.registry.lookup "pick" ⟨"[^i]"⟩ = some (fun _ => Boxing.int 2) ∧
      r.registry.lookup "toUnsignedByte" ⟨"[^d,v,i]"⟩ = some Conversion.toUnsignedByte.routine ∧
      r.modules = ["late", "convert", "text", "convert"] := by
  obtain ⟨r, s', h⟩ := boot_completes [impostor] [latecomer] (by
    intro m hm registry s
    simp only [List.cons_append, List.nil_append, List.mem_cons, List.not_mem_nil, or_false] at hm
    rcases hm with rfl | rfl <;> exact ⟨_, s, rfl⟩) {}
  obtain ⟨sorted, hsorted, hsome, -, hshipped, -, hnames⟩ := boot_resolves [impostor] [latecomer] h
  obtain rfl : sorted = [impostor] := List.perm_singleton.mp hsorted.permuted
  refine ⟨r, s', h, (hsome "pick" ⟨"[^i]"⟩ _).mpr ?_, hshipped Conversion.toUnsignedByte List.mem_cons_self, hnames⟩
  refine ⟨Builtin.rosters, impostor, [latecomer], rfl, ?_, [_, _], [], rfl, by simp⟩
  intro m hm
  rw [← Roster.last?_eq_none_iff]
  simp only [Builtin.rosters, List.mem_cons, List.not_mem_nil, or_false] at hm
  rcases hm with rfl | rfl <;> rfl

end BoxedRuntime
