/-
  BoxedRuntime.Proofs.Startup.Walk — linking, walking and booting.

  Linking puts each initializer before the ones linked earlier, so a chain walks its
  modules in the reverse of the order in which they were linked. A boot is a link of
  every module, one walk of register callbacks that fills the registry, and one walk of
  queries that leaves it alone.

  The register pass collects what it has taken off the chain. `registerAll` is its walk
  without the collecting: that is the same for all proofs about what callbacks do.

  Main statements:
  - `linkAll_apply`: linking never fails, counts its links, and the last module linked
    walks first.
  - `registerPass_apply`: what the register pass gives is the walk of the chain.
  - `run_apply`: a run is the register pass and then the query pass on what it filled.
  - `boot_apply`: what a boot answers, in terms of the two passes.
  - `boot_ok`: of a completed boot, the registry is what the register pass filled, and
    the module names are the link order reversed.
  - `boot_of_passes`: a boot completes if both passes do.
-/
import BoxedRuntime.Boot

namespace BoxedRuntime

namespace Chain

variable {C : Type}

/-! ## Linking -/

theorem link_apply (c : Chain C) (i : Initializer C) (s : Session) :
    c.link i s = (.ok ⟨i :: c.walk, c.linked + 1⟩,
      (if c.contains i.name then s.write (repeatedRecord i.name) else s).write (linkingRecord i.name)) := by
  unfold link
  cases c.contains i.name <;> rfl

theorem linkAll_apply (is : List (Initializer C)) : ∀ (c : Chain C) (s : Session),
    c.linkAll is s = (.ok ⟨is.reverse ++ c.walk, c.linked + is.length⟩, (c.linkAll is s).2) := by
  induction is with
  | nil => intro c s; rfl
  | cons i is ih =>
    intro c s
    simp only [linkAll, List.foldlM_cons, Op.bind_apply, link_apply] at ih ⊢
    rw [ih]
    simp [Nat.add_assoc, Nat.add_comm 1]

theorem linkAll_empty (is : List (Initializer C)) (s : Session) :
    Chain.empty.linkAll is s = (.ok ⟨is.reverse, is.length⟩, (Chain.empty.linkAll is s).2) := by
  rw [linkAll_apply, Chain.empty, List.append_nil, Nat.zero_add]

/-! ## Running -/

def registerAll (is : List (Initializer C)) : Startup C Unit :=
  is.forM fun i => do
    Op.emit (registeringRecord i.name)
    i.register

theorem registerAll_append (is js : List (Initializer C)) :
    registerAll (is ++ js) = registerAll is >>= fun _ => registerAll js := by
  unfold registerAll
  exact List.forM_append

/-- A module that registers is announced in the log, and then its callback runs. -/
theorem registerAll_cons_apply (i : Initializer C) (is : List (Initializer C)) (context : C) (s : Session) :
    registerAll (i :: is) (context, s) =
      match i.register (context, s.write (registeringRecord i.name)) with
      | (.ok _, p) => registerAll is p
      | (.error f, p) => (.error f, p) := by
  show ((liftM (Op.emit (registeringRecord i.name)) >>= fun _ => i.register) >>= fun _ => registerAll is)
    (context, s) = _
  simp only [Startup.bind_apply, Startup.emit_apply]
  rcases i.register (context, s.write (registeringRecord i.name)) with ⟨_ | _, _⟩ <;> rfl

/-- The pass gives what it had collected before and after that all that it walked. -/
theorem registerFrom_eq (ran is : List (Initializer C)) :
    registerFrom ran is = registerAll is >>= fun _ => pure (ran ++ is) := by
  induction is generalizing ran with
  | nil => rw [List.append_nil]; rfl
  | cons i is ih =>
    have hcons : registerAll (i :: is) =
        (liftM (Op.emit (registeringRecord i.name)) >>= fun _ => i.register) >>= fun _ => registerAll is := rfl
    simp only [registerFrom, hcons, bind_assoc, ih, List.append_assoc, List.singleton_append]

theorem registerPass_apply (c : Chain C) (p : C × Session) :
    c.registerPass p = match registerAll c.walk p with
      | (.ok _, p') => (.ok c.walk, p')
      | (.error f, p') => (.error f, p') := by
  rw [registerPass, registerFrom_eq, Startup.bind_apply, List.nil_append]
  rcases registerAll c.walk p with ⟨_ | _, _⟩ <;> rfl

theorem run_apply (c : Chain C) (context : C) (s : Session) :
    c.run (context, s) = match registerAll c.walk (context, s) with
      | (.ok _, context', s') => ((queryPass c.walk context' s').1, context', (queryPass c.walk context' s').2)
      | (.error f, context', s') => (.error f, context', s') := by
  simp only [run, Startup.bind_apply, registerPass_apply]
  rcases registerAll c.walk (context, s) with ⟨_ | _, _, _⟩ <;> rfl

end Chain

/-! ## Booting -/

/-- The session in which the first module registers. -/
def Boot.opened (extensions extra : List Module) (s : Session) : Session :=
  (linkModules extensions extra s).2.write (bootingRecord ((linkOrder extensions extra).reverse.map (·.name)))

namespace Runtime

theorem boot_apply (extensions extra : List Module) (s : Session) :
    let walk := (Boot.linkOrder extensions extra).reverse
    let names := walk.map (·.name)
    boot extensions extra s =
      match Chain.registerAll walk (Registry.empty, Boot.opened extensions extra s) with
      | (.error f, _, s') => (.error f, s')
      | (.ok _, registry, s') =>
        match Chain.queryPass walk registry s' with
        | (.error f, s'') => (.error f, s'')
        | (.ok report, s'') =>
          (.ok ⟨registry, names, report⟩, s''.write (Boot.bootedRecord names registry report)) := by
  intro walk names
  unfold boot Boot.opened
  rw [Op.bind_apply, Boot.linkModules, Chain.linkAll_empty]
  simp only [Op.bind_apply, Op.emit_apply, Startup.runFrom, ExceptT.mk,
    Chain.run_apply, Chain.names, walk, names]
  rcases Chain.registerAll (Boot.linkOrder extensions extra).reverse _ with ⟨f | _, registry, s'⟩
  · rfl
  · dsimp only
    rcases Chain.queryPass (Boot.linkOrder extensions extra).reverse registry s' with ⟨f | report, s''⟩ <;> rfl

theorem boot_ok {extensions extra : List Module} {s s' : Session} {r : Runtime}
    (h : boot extensions extra s = (.ok r, s')) :
    r.modules = ((Boot.linkOrder extensions extra).map (·.name)).reverse ∧
      ∃ s₁ s₂, Chain.registerAll (Boot.linkOrder extensions extra).reverse
            (Registry.empty, Boot.opened extensions extra s) = (.ok (), r.registry, s₁) ∧
        Chain.queryPass (Boot.linkOrder extensions extra).reverse r.registry s₁ = (.ok r.report, s₂) := by
  rw [boot_apply] at h
  split at h
  · cases h
  · rename_i registry s₁ hreg
    split at h
    · cases h
    · rename_i report s₂ hquery
      cases h
      exact ⟨List.map_reverse, s₁, s₂, hreg, hquery⟩

/-- A boot completes if both passes do. -/
theorem boot_of_passes {extensions extra : List Module} {s s₁ s₂ : Session} {registry : Registry} {report : Report}
    (hreg : Chain.registerAll (Boot.linkOrder extensions extra).reverse
      (Registry.empty, Boot.opened extensions extra s) = (.ok (), registry, s₁))
    (hquery : Chain.queryPass (Boot.linkOrder extensions extra).reverse registry s₁ = (.ok report, s₂)) :
    ∃ r s', boot extensions extra s = (.ok r, s') := by
  rw [boot_apply]
  simp only [hreg, hquery]
  exact ⟨_, _, rfl⟩

end Runtime
end BoxedRuntime
