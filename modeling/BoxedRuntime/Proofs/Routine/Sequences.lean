/-
  BoxedRuntime.Proofs.Routine.Sequences — shipped conversions one after another.

  Every shipped conversion accepts integers, characters and bytes, and makes one of them:
  what comes of one can be given to any other. The word is what goes through. Bytes and
  characters hold it in fewer bits, but only where it fits, so each stage hands on the very
  number it was given.

  Hence a sequence asks for nothing but the domains of its stages, in any order, and makes
  what its last stage would have made alone. Where it fails it fails at the first stage
  whose domain the word is not in, and by that stage's own precondition: boxing never gets
  to see the word.

  Main statements:
  - `apply_inside`, `apply_outside`: one stage.
  - `applyAll_inside`, `applyAll_outside`: a sequence, by induction over its stages.
  - `sequences_of_shipped`: every sequence on every integral value; stages in between,
    stages twice, and to `int` and back.
-/
import BoxedRuntime.Proofs.Routine.Contract
import BoxedRuntime.Value.Equality

namespace BoxedRuntime

/-- A sound value of a tag that the shipped conversions accept, and its word. -/
structure Handle.Integral (x : Handle) (n : Int64) : Prop where
  sound : x.Sound
  tag : x.tag ∈ Conversion.integral
  word : x.scalar? = some n

theorem Handle.Integral.eq_payload {x y : Handle} {n : Int64} (hx : x.Integral n) (hy : y.Integral n)
    (htag : x.tag = y.tag) : x.payload = y.payload :=
  Payload.eq_of_scalar? (hx.sound.2.symm.trans (htag.trans hy.sound.2)) hx.word hy.word

theorem Handle.Integral.equal {x y : Handle} {n : Int64} (hx : x.Integral n) (hy : y.Integral n)
    (htag : x.tag = y.tag) : x.equal y = true :=
  Handle.equal_of_payload (hx.eq_payload hy htag) (Payload.equal_self_of_scalar? hy.word)

namespace Conversion

/-- Conversions one after another; the first fault ends it. -/
def applyAll (cs : List Conversion) (x : Handle) : Op Handle := cs.foldlM (fun y c => c.apply y) x

theorem applyAll_append (cs ds : List Conversion) (x : Handle) :
    applyAll (cs ++ ds) x = applyAll cs x >>= applyAll ds := List.foldlM_append

theorem applyAll_cons (c : Conversion) (cs : List Conversion) (x : Handle) :
    applyAll (c :: cs) x = c.apply x >>= applyAll cs := List.foldlM_cons

theorem applyAll_singleton (c : Conversion) (x : Handle) : applyAll [c] x = c.apply x := by
  rw [applyAll_cons]
  exact bind_pure (c.apply x)

/-! ## One stage -/

variable {c : Conversion} {x : Handle} {n : Int64}

theorem exact_of_shipped (hc : c ∈ shipped) : c.Exact := by
  simp only [shipped, List.mem_cons, List.not_mem_nil, or_false] at hc
  rcases hc with rfl | rfl | rfl
  · exact toUnsignedByte_exact
  · exact toUnsignedInt_exact
  · exact toChar_exact

/-- Every stage accepts what every stage makes. -/
theorem shipped_compose : ∀ c ∈ shipped, c.accepts = integral ∧ c.result ∈ integral := by decide

theorem reads_of_shipped (hc : c ∈ shipped) (hx : x.Integral n) : c.Reads x n :=
  ⟨hx.sound, (shipped_compose c hc).1 ▸ hx.tag, hx.word⟩

theorem apply_inside (hc : c ∈ shipped) (hx : x.Integral n) (hn : c.result.Domain n.toInt) (s : Session) :
    ∃ y s', c.apply x s = (.ok y, s') ∧ y.Integral n ∧ y.tag = c.result := by
  obtain ⟨p, hpacked, htag, hword⟩ := Boxing.packed_ok hn
  rw [if_neg (exact_of_shipped hc).result] at hword
  rw [apply_settles, (reads_of_shipped hc hx).converted_met ((exact_of_shipped hc).admits_iff.mpr hn), hpacked]
  exact ⟨_, _, rfl, ⟨⟨rfl, rfl⟩, htag ▸ (shipped_compose c hc).2, hword⟩, htag⟩

theorem apply_outside (hc : c ∈ shipped) (hx : x.Integral n) (hn : ¬ c.result.Domain n.toInt) (s : Session) :
    c.apply x s = (.error (c.unmet n), s.raised (c.unmet n)) := by
  rw [apply_settles, (reads_of_shipped hc hx).converted_unmet (mt (exact_of_shipped hc).admits_iff.mp hn)]
  rfl

/-! ## Sequences -/

variable {cs ds : List Conversion}

/-- The word goes through all stages, whatever it is held in. -/
theorem applyAll_inside (hcs : cs ⊆ shipped) (hx : x.Integral n) (hn : ∀ c ∈ cs, c.result.Domain n.toInt)
    (s : Session) :
    ∃ y s', applyAll cs x s = (.ok y, s') ∧ y.Integral n ∧ ∀ c, cs.getLast? = some c → y.tag = c.result := by
  induction cs generalizing x s with
  | nil => exact ⟨x, s, rfl, hx, by simp⟩
  | cons c cs ih =>
    obtain ⟨hc, hrest⟩ := List.cons_subset.mp hcs
    obtain ⟨hnc, hnrest⟩ := List.forall_mem_cons.mp hn
    obtain ⟨y, s₁, hy, hyn, htag⟩ := apply_inside hc hx hnc s
    obtain ⟨z, s₂, hz, hzn, hlast⟩ := ih hrest hyn hnrest s₁
    have hrun : applyAll (c :: cs) x s = (.ok z, s₂) := by
      rw [applyAll_cons, Op.bind_apply, hy]
      exact hz
    refine ⟨z, s₂, hrun, hzn, fun d hd => ?_⟩
    cases cs with
    | nil =>
      cases hz
      cases hd
      exact htag
    | cons c' cs => exact hlast d hd

/-- The stages up to the first that the word is outside of. -/
theorem applyAll_outside {before after : List Conversion} (hcs : before ++ c :: after ⊆ shipped) (hx : x.Integral n)
    (hbefore : ∀ d ∈ before, d.result.Domain n.toInt) (hn : ¬ c.result.Domain n.toInt) (s : Session) :
    (applyAll (before ++ c :: after) x s).1 = .error (c.unmet n) := by
  obtain ⟨hb, hca⟩ := List.append_subset.mp hcs
  obtain ⟨y, s', hy, hyn, -⟩ := applyAll_inside hb hx hbefore s
  rw [applyAll_append, Op.bind_apply, hy]
  show (applyAll (c :: after) y s').1 = _
  rw [applyAll_cons, Op.bind_apply, apply_outside (List.cons_subset.mp hca).1 hyn hn]

/-- A word that is outside of some stage is outside of a first one. -/
theorem exists_first_outside (h : ¬ ∀ c ∈ cs, c.result.Domain n.toInt) :
    ∃ before c after, cs = before ++ c :: after ∧ (∀ d ∈ before, d.result.Domain n.toInt) ∧
      ¬ c.result.Domain n.toInt := by
  induction cs with
  | nil => exact absurd (by simp) h
  | cons c cs ih =>
    by_cases hc : c.result.Domain n.toInt
    · have hrest : ¬ ∀ d ∈ cs, d.result.Domain n.toInt := fun hall => h (List.forall_mem_cons.mpr ⟨hc, hall⟩)
      obtain ⟨before, d, after, rfl, hbefore, hd⟩ := ih hrest
      exact ⟨c :: before, d, after, rfl, List.forall_mem_cons.mpr ⟨hc, hbefore⟩, hd⟩
    · exact ⟨[], c, cs, rfl, by simp, hc⟩

/-- What comes of a sequence on a value with this word. -/
structure Sequence (cs : List Conversion) (n : Int64) (r : Except Fault Handle) : Prop where
  ok_iff : (∃ y, r = .ok y) ↔ ∀ c ∈ cs, c.result.Domain n.toInt
  value : ∀ y, r = .ok y → ∃ c, cs.getLast? = some c ∧ y.Sound ∧ y.tag = c.result ∧ y.scalar? = some n
  fault : ∀ f, r = .error f → ∃ before c after, cs = before ++ c :: after ∧
    (∀ d ∈ before, d.result.Domain n.toInt) ∧ ¬ c.result.Domain n.toInt ∧
    f = .range c.name (Numeral.word n ++ " is not in " ++ c.precondition.describe)

theorem applyAll_sequence (hcs : cs ⊆ shipped) (hne : cs ≠ []) (hx : x.Integral n) (s : Session) :
    Sequence cs n (applyAll cs x s).1 := by
  by_cases hn : ∀ c ∈ cs, c.result.Domain n.toInt
  · obtain ⟨y, s', hrun, hy, hlast⟩ := applyAll_inside hcs hx hn s
    rw [hrun]
    refine ⟨⟨fun _ => hn, fun _ => ⟨y, rfl⟩⟩, fun z hz => ?_, nofun⟩
    cases hz
    have hc := List.getLast?_eq_some_getLast hne
    exact ⟨_, hc, hy.sound, hlast _ hc, hy.word⟩
  · obtain ⟨before, c, after, rfl, hbefore, hc⟩ := exists_first_outside hn
    rw [applyAll_outside hcs hx hbefore hc]
    refine ⟨⟨by simp, fun h => absurd h hn⟩, nofun, fun f hf => ?_⟩
    cases hf
    exact ⟨before, c, after, rfl, hbefore, hc, rfl⟩

/-- What a sequence makes is integral again, so it has the form of its last stage. -/
theorem applyAll_made (hc : c ∈ shipped) (hcs : cs ⊆ shipped) (hx : x.Integral n) {s : Session} {y : Handle}
    (hy : (applyAll (cs ++ [c]) x s).1 = .ok y) : y.Integral n ∧ y.tag = c.result := by
  have hall : cs ++ [c] ⊆ shipped := List.append_subset.mpr ⟨hcs, List.cons_subset.mpr ⟨hc, List.nil_subset _⟩⟩
  obtain ⟨d, hd, hs, htag, hword⟩ := (applyAll_sequence hall (by simp) hx s).value y hy
  rw [List.getLast?_concat] at hd
  cases hd
  exact ⟨⟨hs, htag ▸ (shipped_compose c hc).2, hword⟩, htag⟩

/-- The stages in between decide whether there is a value, but not which. -/
theorem applyAll_last (hc : c ∈ shipped) (hcs : cs ⊆ shipped) (hds : ds ⊆ shipped) (hx : x.Integral n)
    {s s' : Session} {y z : Handle} (hy : (applyAll (cs ++ [c]) x s).1 = .ok y)
    (hz : (applyAll (ds ++ [c]) x s').1 = .ok z) : y.payload = z.payload ∧ y.equal z = true := by
  obtain ⟨hyn, hytag⟩ := applyAll_made hc hcs hx hy
  obtain ⟨hzn, hztag⟩ := applyAll_made hc hds hx hz
  have htag := hytag.trans hztag.symm
  exact ⟨hyn.eq_payload hzn htag, hyn.equal hzn htag⟩

theorem applyAll_twice (hc : c ∈ shipped) (hx : x.Integral n) (s s' : Session) :
    (applyAll [c, c] x s).1.map Handle.payload = (c.apply x s').1.map Handle.payload := by
  by_cases hn : c.result.Domain n.toInt
  · obtain ⟨y, s₁, hy, hyn, hytag⟩ := apply_inside hc hx hn s
    obtain ⟨z, s₂, hz, hzn, hztag⟩ := apply_inside hc hyn hn s₁
    obtain ⟨w, s₃, hw, hwn, hwtag⟩ := apply_inside hc hx hn s'
    have hrun : (applyAll [c, c] x s).1 = .ok z := by
      rw [applyAll_cons, Op.bind_apply, hy]
      show (applyAll [c] y s₁).1 = _
      rw [applyAll_singleton, hz]
    rw [hrun, hw]
    exact congrArg Except.ok (hzn.eq_payload hwn (hztag.trans hwtag.symm))
  · rw [applyAll_cons, Op.bind_apply, apply_outside hc hx hn, apply_outside hc hx hn]

theorem exists_back : ∀ t ∈ integral, ∃ c ∈ shipped, c.result = t := by decide

/-- To `int` and back by the conversion to the value's own tag. -/
theorem applyAll_back (hc : c ∈ shipped) (hback : c.result = x.tag) (hx : x.Integral n) (s : Session) :
    ∃ y, (applyAll [toUnsignedInt, c] x s).1 = .ok y ∧ y.Sound ∧ y.payload = x.payload ∧ y.equal x = true := by
  have hall : [toUnsignedInt, c] ⊆ shipped := by
    have hint : toUnsignedInt ∈ shipped := by decide
    simp [hint, hc]
  have hown : c.result.Domain n.toInt := by
    rw [hback, hx.sound.2]
    exact Payload.domain_of_scalar? hx.word
  have hn : ∀ d ∈ [toUnsignedInt, c], d.result.Domain n.toInt := by
    have hint : toUnsignedInt.result.Domain n.toInt := trivial
    simp [hint, hown]
  obtain ⟨y, s', hrun, hy, hlast⟩ := applyAll_inside hall hx hn s
  have htag : y.tag = x.tag := (hlast c rfl).trans hback
  exact ⟨y, by rw [hrun], hy.sound, hy.eq_payload hx htag, hy.equal hx htag⟩

theorem sequences_of_shipped {x : Handle} {n : Int64} (hx : x.Integral n) :
    (∀ cs ⊆ shipped, cs ≠ [] → ∀ s, Sequence cs n (applyAll cs x s).1) ∧
      (∀ c ∈ shipped, ∀ cs ⊆ shipped, ∀ ds ⊆ shipped, ∀ s s' y z,
        (applyAll (cs ++ [c]) x s).1 = .ok y → (applyAll (ds ++ [c]) x s').1 = .ok z →
          y.payload = z.payload ∧ y.equal z = true) ∧
      (∀ c ∈ shipped, ∀ s s', (applyAll [c, c] x s).1.map Handle.payload = (c.apply x s').1.map Handle.payload) ∧
      (∃ c ∈ shipped, c.result = x.tag) ∧ ∀ c ∈ shipped, c.result = x.tag → ∀ s, ∃ y,
        (applyAll [toUnsignedInt, c] x s).1 = .ok y ∧ y.Sound ∧ y.payload = x.payload ∧ y.equal x = true :=
  ⟨fun _ hcs hne s => applyAll_sequence hcs hne hx s,
    fun _ hc _ hcs _ hds _ _ _ _ hy hz => applyAll_last hc hcs hds hx hy hz,
    fun _ hc s s' => applyAll_twice hc hx s s',
    exists_back x.tag hx.tag,
    fun _ hc hback s => applyAll_back hc hback hx s⟩

/-- A character that is no byte: the last of three stages refuses it, and `int` gives it back. -/
theorem lambda_sequences :
    let lambda : Handle := ⟨0, liveMagic, .char, .char 'λ'⟩
    let stages := [toUnsignedInt, toChar, toUnsignedByte]
    lambda.Integral 955 ∧ Sequence stages 955 (applyAll stages lambda {}).1 ∧
      (applyAll stages lambda {}).1 = .error (toUnsignedByte.unmet 955) ∧
      ∃ y, (applyAll [toUnsignedInt, toChar] lambda {}).1 = .ok y ∧ y.equal lambda = true := by
  intro lambda stages
  have hx : lambda.Integral 955 := ⟨⟨rfl, rfl⟩, by decide, rfl⟩
  obtain ⟨hsequence, -, -, -, hback⟩ := sequences_of_shipped hx
  obtain ⟨y, hy, -, -, hequal⟩ := hback toChar (by decide) rfl {}
  exact ⟨hx, hsequence stages (by decide) (by decide) {}, rfl, y, hy, hequal⟩

end Conversion
end BoxedRuntime
