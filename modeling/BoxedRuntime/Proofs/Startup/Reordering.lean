/-
  BoxedRuntime.Proofs.Startup.Reordering — orders that a boot does not depend on.

  Extensions are sorted before they are linked, so with distinct names it does not matter
  in which order they were submitted. Extra modules are linked as they are given. If no
  two of them register one key, the registry comes out the same in every order of them,
  whatever keys they share with the other modules: registrations of different keys
  commute, and the other modules register after all the extra ones.

  What the extensions do while they register is not restricted, except that they do not
  read the log (`Startup.Steady`), which tells in which order the extra modules came.

  Main statements:
  - `sortExtensions_eq_of_perm`: the link order of extensions with distinct names.
  - `fill_eq_of_perm`: the registry filled by modules without a common key.
  - `registerAll_reordered`: the register pass of a boot, extra modules reordered.
  - `failures_of_gives`: the complaints of queries that depend on the registry alone.
  - `boot_order_irrelevant`: both orders, for the whole boot.
-/
import BoxedRuntime.Proofs.Startup.Resolution
import Mathlib.Data.List.Nodup
import Mathlib.Data.List.Pairwise

namespace BoxedRuntime

variable {C α : Type}

/-! ## The order of extensions -/

theorem sortExtensions_eq_of_perm {submitted submitted' : List Module} (h : submitted'.Perm submitted)
    (hnames : (submitted.map (·.name)).Nodup) : Boot.sortExtensions submitted' = Boot.sortExtensions submitted := by
  have perm : (Boot.sortExtensions submitted).Perm submitted := List.mergeSort_perm _ _
  have perm' : (Boot.sortExtensions submitted').Perm submitted' := List.mergeSort_perm _ _
  refine List.Perm.eq_of_pairwise ?_ (sorted_by_name (·.name) submitted') (sorted_by_name (·.name) submitted)
    (perm'.trans (h.trans perm.symm))
  intro m n hm hn hmn hnm
  have hm' : m ∈ submitted := h.mem_iff.mp (perm'.mem_iff.mp hm)
  exact List.inj_on_of_nodup_map hnames hm' (perm.mem_iff.mp hn) (String.le_antisymm hmn hnm)

theorem linkOrder_perm (extensions : List Module) {extra extra' : List Module} (h : extra'.Perm extra) :
    (Boot.linkOrder extensions extra').Perm (Boot.linkOrder extensions extra) :=
  List.Perm.append_left _ h

/-! ## Modules without a common key -/

def Roster.Disjoint (m n : Roster) : Prop := ∀ k, m.Registers k → ¬ n.Registers k

instance : Std.Symm Roster.Disjoint := ⟨fun _ _ h k hn hm => h k hm hn⟩

theorem Roster.Disjoint.insertAll_comm {m n : Roster} (h : m.Disjoint n) (r : Registry) :
    (r.insertAll m.registrations).insertAll n.registrations =
      (r.insertAll n.registrations).insertAll m.registrations :=
  Registry.insertAll_comm (fun x hx y hy he => h x.key ⟨x, hx, rfl⟩ ⟨y, hy, he.symm⟩) r

theorem fill_eq_of_perm {order order' : List Roster} (h : order'.Perm order)
    (hdisjoint : order.Pairwise Roster.Disjoint) : fill order' = fill order := by
  refine h.foldr_eq' (fun m hm n hn r => ?_) Registry.empty
  by_cases he : m = n
  · rw [he]
  · exact (hdisjoint.forall (h.mem_iff.mp hm) (h.mem_iff.mp hn) he).insertAll_comm r

/-! ## Callbacks that do not read the log -/

/-- Sessions that can only be told apart by their logs. -/
def Session.Alike (s t : Session) : Prop := s.faults = t.faults ∧ s.nextId = t.nextId

theorem Session.alike_write (s : Session) (r : LogRecord) : s.Alike (s.write r) := ⟨rfl, rfl⟩

theorem Session.Alike.symm {s t : Session} (h : s.Alike t) : t.Alike s := ⟨h.1.symm, h.2.symm⟩

theorem Session.Alike.trans {s t u : Session} (h : s.Alike t) (h' : t.Alike u) : s.Alike u :=
  ⟨h.1.trans h'.1, h.2.trans h'.2⟩

theorem Session.Alike.write {s t : Session} (h : s.Alike t) (r : LogRecord) : (s.write r).Alike (t.write r) := h

/-- In sessions that are alike the operation ends alike, and makes the same of the context. -/
def Startup.Steady (x : Startup C α) : Prop :=
  ∀ c s t, s.Alike t → (x (c, s)).1 = (x (c, t)).1 ∧ (x (c, s)).2.1 = (x (c, t)).2.1 ∧
    (x (c, s)).2.2.Alike (x (c, t)).2.2

/-- Registering does nothing to a session but write to its log. -/
theorem Registry.alike_registerEach (rs : List Registration) :
    ∀ (r : Registry) (s : Session), s.Alike (registerEach rs (r, s)).2.2 := by
  induction rs with
  | nil => exact fun _ _ => ⟨rfl, rfl⟩
  | cons x rs ih =>
    intro r s
    show s.Alike ((register x.key.name x.key.signature x.routine >>= fun _ => registerEach rs) (r, s)).2.2
    rw [Startup.bind_apply, register_apply]
    refine Session.Alike.trans ?_ (ih _ _)
    split
    · exact ⟨rfl, rfl⟩
    · exact ⟨rfl, rfl⟩

theorem Roster.steady_register (m : Roster) : m.module.register.Steady := by
  intro r s t h
  have hs : s.Alike (m.module.register (r, s)).2.2 := Registry.alike_registerEach m.registrations r s
  have ht : t.Alike (m.module.register (r, t)).2.2 := Registry.alike_registerEach m.registrations r t
  refine ⟨?_, ?_, hs.symm.trans (h.trans ht)⟩
  all_goals
    obtain ⟨s', hs⟩ := Registry.registerEach_apply m.registrations r s
    obtain ⟨t', ht⟩ := Registry.registerEach_apply m.registrations r t
    have hs : m.module.register (r, s) = (.ok (), r.insertAll m.registrations, s') := hs
    have ht : m.module.register (r, t) = (.ok (), r.insertAll m.registrations, t') := ht
    rw [hs, ht]

theorem Builtin.steady_register {m : Module} (hm : m ∈ Builtin.modules) : m.register.Steady := by
  obtain ⟨roster, -, rfl⟩ := Builtin.exists_roster hm
  exact roster.steady_register

namespace Chain

theorem steady_registerAll {is : List (Initializer C)} (h : ∀ i ∈ is, i.register.Steady) :
    (registerAll is).Steady := by
  induction is with
  | nil => exact fun _ _ _ halike => ⟨rfl, rfl, halike⟩
  | cons i is ih =>
    intro c s t halike
    have hrest := ih fun j hj => h j (List.mem_cons_of_mem i hj)
    obtain ⟨hend, hcontext, hsession⟩ := h i List.mem_cons_self c (s.write (registeringRecord i.name))
      (t.write (registeringRecord i.name)) (halike.write _)
    rw [registerAll_cons_apply, registerAll_cons_apply]
    rcases hs : i.register (c, s.write (registeringRecord i.name)) with ⟨f | _, c₁, s₁⟩ <;>
      rcases ht : i.register (c, t.write (registeringRecord i.name)) with ⟨g | _, c₂, t₁⟩ <;>
      rw [hs, ht] at hend hcontext hsession
    · exact ⟨hend, hcontext, hsession⟩
    · cases hend
    · cases hend
    · obtain rfl : c₁ = c₂ := hcontext
      exact hrest c₁ s₁ t₁ hsession

theorem alike_registerAll (walk : List Roster) :
    ∀ (r : Registry) (s : Session), s.Alike (registerAll (walk.map Roster.module) (r, s)).2.2 := by
  induction walk with
  | nil => exact fun _ _ => ⟨rfl, rfl⟩
  | cons m walk ih =>
    intro r s
    obtain ⟨s', hs'⟩ := Registry.registerEach_apply m.registrations r (s.write (registeringRecord m.name))
    have halike := Registry.alike_registerEach m.registrations r (s.write (registeringRecord m.name))
    rw [hs'] at halike
    rw [List.map_cons, registerAll_cons_apply]
    simp only [Roster.module, hs']
    exact ((s.alike_write _).trans halike).trans (ih _ s')

theorem alike_linkAll (is : List (Initializer C)) : ∀ (c : Chain C) (s : Session), s.Alike (c.linkAll is s).2 := by
  induction is with
  | nil => exact fun _ _ => ⟨rfl, rfl⟩
  | cons i is ih =>
    intro c s
    rw [linkAll, List.foldlM_cons, Op.bind_apply, link_apply]
    refine Session.Alike.trans ?_ (ih _ _)
    split
    · exact ⟨rfl, rfl⟩
    · exact ⟨rfl, rfl⟩

end Chain

theorem Boot.alike_opened (extensions extra : List Module) (s : Session) : s.Alike (opened extensions extra s) :=
  (Chain.alike_linkAll _ _ s).trans (Session.alike_write _ _)

/-! ## The register pass -/

/-- The modules that register after the extra ones. -/
def laterModules (extensions : List Module) : List Module :=
  (Builtin.modules ++ Boot.sortExtensions extensions).reverse

theorem registerAll_linkOrder (extensions : List Module) (extra : List Roster) (s : Session) :
    ∃ s', s.Alike s' ∧ Chain.registerAll (Boot.linkOrder extensions (extra.map Roster.module)).reverse
      (Registry.empty, s) = Chain.registerAll (laterModules extensions) (fill extra, s') := by
  obtain ⟨s', h⟩ := registerAll_reverse extra s
  have halike := Chain.alike_registerAll extra.reverse Registry.empty s
  rw [List.map_reverse, h] at halike
  refine ⟨s', halike, ?_⟩
  rw [Boot.linkOrder, List.reverse_append, Chain.registerAll_append, Startup.bind_apply, h]
  rfl

theorem registerAll_reordered {extensions : List Module} (hsteady : ∀ m ∈ extensions, m.register.Steady)
    {extra extra' : List Roster} (h : extra'.Perm extra) (hdisjoint : extra.Pairwise Roster.Disjoint)
    {s s₁ s' s₁' : Session} {registry registry' : Registry} (halike : s'.Alike s)
    (hreg : Chain.registerAll (Boot.linkOrder extensions (extra.map Roster.module)).reverse (Registry.empty, s) =
      (.ok (), registry, s₁))
    (hreg' : Chain.registerAll (Boot.linkOrder extensions (extra'.map Roster.module)).reverse (Registry.empty, s') =
      (.ok (), registry', s₁')) : registry' = registry := by
  have hlater : ∀ m ∈ laterModules extensions, m.register.Steady := by
    intro m hm
    rcases List.mem_append.mp (List.mem_reverse.mp hm) with hm | hm
    · exact Builtin.steady_register hm
    · exact hsteady m (List.mem_mergeSort.mp hm)
  obtain ⟨t, hst, ht⟩ := registerAll_linkOrder extensions extra s
  obtain ⟨t', hst', ht'⟩ := registerAll_linkOrder extensions extra' s'
  rw [fill_eq_of_perm h hdisjoint] at ht'
  have hsame := (Chain.steady_registerAll hlater (fill extra) t' t (hst'.symm.trans (halike.trans hst))).2.1
  rw [← ht, ← ht', hreg, hreg'] at hsame
  exact hsame

/-! ## The query pass -/

/-- Queries that look at the registry alone have a verdict on it each. -/
theorem exists_verdict {extensions extra : List Module} {registry : Registry}
    (hquery : ∀ m ∈ extensions ++ extra, ∃ v, (m.query registry).Gives v) :
    ∃ verdict : Module → Verdict, ∀ m ∈ Boot.linkOrder extensions extra, (m.query registry).Gives (verdict m) := by
  have hverdicts : ∀ m, ∃ v, m ∈ Boot.linkOrder extensions extra → (m.query registry).Gives v := by
    intro m
    by_cases hm : m ∈ Boot.linkOrder extensions extra
    · obtain ⟨v, hv⟩ := (mem_linkOrder.mp hm).elim (Builtin.query_gives · registry) (hquery m)
      exact ⟨v, fun _ => hv⟩
    · exact ⟨.ok (), fun h => absurd h hm⟩
  exact Classical.skolem.mp hverdicts

/-- Complaints are made in the order of the walk. -/
theorem failures_of_gives {extensions extra : List Module} {s s' : Session} {r : Runtime}
    (h : Runtime.boot extensions extra s = (.ok r, s')) {verdict : Module → Verdict}
    (hverdict : ∀ m ∈ Boot.linkOrder extensions extra, (m.query r.registry).Gives (verdict m)) :
    r.report.failures = (Boot.linkOrder extensions extra).reverse.filterMap
      fun m => Chain.complaint? m (verdict m) := by
  obtain ⟨-, s₁, s₂, -, hquery⟩ := Runtime.boot_ok h
  obtain ⟨vs, hasked, hreport⟩ := Chain.asked_of_queryPass hquery
  rw [hreport]
  exact hasked.complaints_of_gives fun m hm => hverdict m (List.mem_reverse.mp hm)

/-- So the same modules in another order make the same complaints in another order. -/
theorem failures_perm {extensions extra extra' : List Module} (h : extra'.Perm extra) {s s₁ s' s₁' : Session}
    {r r' : Runtime} (hr : Runtime.boot extensions extra s = (.ok r, s₁))
    (hr' : Runtime.boot extensions extra' s' = (.ok r', s₁')) (hregistry : r'.registry = r.registry)
    (hquery : ∀ m ∈ extensions ++ extra, ∃ v, (m.query r.registry).Gives v) :
    r'.report.failures.Perm r.report.failures := by
  obtain ⟨verdict, hverdict⟩ := exists_verdict hquery
  have hlink := linkOrder_perm extensions h
  rw [failures_of_gives hr hverdict,
    failures_of_gives hr' fun m hm => hregistry ▸ hverdict m (hlink.mem_iff.mp hm)]
  exact (((List.reverse_perm _).trans hlink).trans (List.reverse_perm _).symm).filterMap _

/-! ## The boot -/

/-- Neither a callback of an extension nor a query faults. -/
theorem boot_completes_extra {extensions : List Module} {extra : List Roster}
    (hreg : ∀ m ∈ extensions, ∀ p, ∃ q, m.register p = (.ok (), q))
    (hquery : ∀ m ∈ extensions ++ extra.map Roster.module, ∀ registry, ∃ v, (m.query registry).Gives v)
    (s : Session) : ∃ r s', Runtime.boot extensions (extra.map Roster.module) s = (.ok r, s') := by
  refine boot_completes_of (fun m hm => ?_) (fun m hm registry s => ?_) s
  · rcases List.mem_append.mp hm with hm | hm
    · exact hreg m hm
    · obtain ⟨roster, -, rfl⟩ := List.mem_map.mp hm
      exact roster.register_ok
  · obtain ⟨v, hv⟩ := hquery m hm registry
    exact ⟨v, _, hv.apply s⟩

/-- A boot takes no notice of the order in which extensions of distinct names were
    submitted, and its registry none of the order of extra modules without a common key.
    If the queries look at the registry alone and no callback faults, both boots complete,
    and the complaints are the same but for their order. -/
theorem boot_order_irrelevant :
    (∀ extensions extensions' extra : List Module, extensions'.Perm extensions → (extensions.map (·.name)).Nodup →
      Runtime.boot extensions' extra = Runtime.boot extensions extra) ∧
    ∀ (extensions : List Module) (extra extra' : List Roster), extra'.Perm extra → extra.Pairwise Roster.Disjoint →
      (∀ m ∈ extensions, m.register.Steady) → ∀ s s' : Session, s'.Alike s →
      (∀ r r', (Runtime.boot extensions (extra.map Roster.module) s).1 = .ok r →
        (Runtime.boot extensions (extra'.map Roster.module) s').1 = .ok r' → r'.registry = r.registry) ∧
      ((∀ m ∈ extensions, ∀ p, ∃ q, m.register p = (.ok (), q)) →
        (∀ m ∈ extensions ++ extra.map Roster.module, ∀ registry, ∃ v, (m.query registry).Gives v) →
        ∃ r r', (Runtime.boot extensions (extra.map Roster.module) s).1 = .ok r ∧
          (Runtime.boot extensions (extra'.map Roster.module) s').1 = .ok r' ∧
          r'.registry = r.registry ∧ r'.report.failures.Perm r.report.failures) := by
  constructor
  · intro extensions extensions' extra h hnames
    unfold Runtime.boot Boot.linkModules Boot.linkOrder
    rw [sortExtensions_eq_of_perm h hnames]
  intro extensions extra extra' h hdisjoint hsteady s s' halike
  have hregistry : ∀ r r', (Runtime.boot extensions (extra.map Roster.module) s).1 = .ok r →
      (Runtime.boot extensions (extra'.map Roster.module) s').1 = .ok r' → r'.registry = r.registry := by
    intro r r' hr hr'
    obtain ⟨-, s₁, -, hreg, -⟩ := Runtime.boot_ok (Prod.ext hr rfl)
    obtain ⟨-, s₁', -, hreg', -⟩ := Runtime.boot_ok (Prod.ext hr' rfl)
    refine registerAll_reordered hsteady h hdisjoint ?_ hreg hreg'
    exact (Boot.alike_opened _ _ s').symm.trans (halike.trans (Boot.alike_opened _ _ s))
  refine ⟨hregistry, fun hreg hquery => ?_⟩
  have hmap := h.map Roster.module
  have hquery' : ∀ m ∈ extensions ++ extra'.map Roster.module, ∀ registry, ∃ v, (m.query registry).Gives v :=
    fun m hm => hquery m ((hmap.append_left extensions).mem_iff.mp hm)
  obtain ⟨r, t, hr⟩ := boot_completes_extra hreg hquery s
  obtain ⟨r', t', hr'⟩ := boot_completes_extra hreg hquery' s'
  have hsame := hregistry r r' (congrArg Prod.fst hr) (congrArg Prod.fst hr')
  refine ⟨r, r', congrArg Prod.fst hr, congrArg Prod.fst hr', hsame, ?_⟩
  exact failures_perm hmap hr hr' hsame fun m hm => hquery m hm r.registry

/-- A module that registers one routine and complains all the same. -/
def claimant (name : String) (key : RoutineKey) (n : Int64) : Roster where
  name := name
  registrations := [⟨key, fun _ => Boxing.int n⟩]
  query := fun _ => pure (.error "not mine")

/-- Two extensions submitted in either order, and two extra modules linked in either order,
    of which one shares its key with an extension and the other with a builtin module. -/
theorem swapped_boots_agree :
    let pick : RoutineKey := ⟨"pick", ⟨"[^i]"⟩⟩
    let toChar : RoutineKey := ⟨"toChar", ⟨"[^c,v,i]"⟩⟩
    let alpha := (claimant "alpha" pick 1).module
    let zeta := (claimant "zeta" pick 2).module
    let x := claimant "x" pick 3
    let y := claimant "y" toChar 4
    Runtime.boot [zeta, alpha] [] = Runtime.boot [alpha, zeta] [] ∧
      ∃ r r', (Runtime.boot [alpha] ([x, y].map Roster.module) {}).1 = .ok r ∧
        (Runtime.boot [alpha] ([y, x].map Roster.module) {}).1 = .ok r' ∧ r'.registry = r.registry ∧
        r'.report.failures.Perm r.report.failures ∧ r.modules = ["y", "x", "alpha", "text", "convert"] ∧
        r'.modules = ["x", "y", "alpha", "text", "convert"] := by
  intro pick toChar alpha zeta x y
  obtain ⟨hextensions, hextra⟩ := boot_order_irrelevant
  have hdisjoint : [x, y].Pairwise Roster.Disjoint := by
    refine List.pairwise_pair.mpr ?_
    rintro k ⟨a, ha, rfl⟩ ⟨b, hb, he⟩
    rw [List.mem_singleton.mp ha, List.mem_singleton.mp hb] at he
    exact absurd he (by decide)
  have hsteady : ∀ m ∈ [alpha], m.register.Steady := by
    intro m hm
    rw [List.mem_singleton.mp hm]
    exact (claimant "alpha" pick 1).steady_register
  have hregister : ∀ m ∈ [alpha], ∀ p, ∃ q, m.register p = (.ok (), q) := by
    intro m hm
    rw [List.mem_singleton.mp hm]
    exact (claimant "alpha" pick 1).register_ok
  have hquery : ∀ m ∈ [alpha] ++ [x, y].map Roster.module, ∀ registry, ∃ v, (m.query registry).Gives v := by
    intro m hm registry
    simp only [List.map_cons, List.map_nil, List.cons_append, List.nil_append, List.mem_cons, List.not_mem_nil,
      or_false] at hm
    rcases hm with rfl | rfl | rfl <;> exact ⟨.error "not mine", fun _ => rfl⟩
  refine ⟨hextensions _ _ [] (.swap alpha zeta []) (by decide), ?_⟩
  obtain ⟨r, r', hr, hr', hsame, hperm⟩ :=
    (hextra [alpha] [x, y] [y, x] (.swap x y []) hdisjoint hsteady {} {} ⟨rfl, rfl⟩).2 hregister hquery
  refine ⟨r, r', hr, hr', hsame, hperm, ?_, ?_⟩
  · rw [(Runtime.boot_ok (Prod.ext hr rfl)).1, linkOrder_singleton]
    rfl
  · rw [(Runtime.boot_ok (Prod.ext hr' rfl)).1, linkOrder_singleton]
    rfl

end BoxedRuntime
