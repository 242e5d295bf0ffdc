/-
  BoxedRuntime.Proofs.Startup.Duplicates — what the log of a boot says of duplicates.

  Nothing keeps two modules from having one name, and nothing keeps a key from being
  registered twice. Both are noted in the log: a link of a name that is in the chain
  already by a warning, a registration of a key that is in the registry already by a
  record that names it. A `journal` is such a log: at each element is written what depends
  on the elements before it. The duplicates noted make up for what is missing in the
  chain's distinct names and in the registry's entries.

  A register pass is a `Filling`: a list of register calls on one registry, and between
  them anything that leaves the registry alone. So it is known of each call what the
  registry is that it finds, and what it logs. What stands in the log besides comes from
  the other things that callbacks do. A callback is `Quiet` if these do not write under the
  registry's target; then the registry's part of the log is what the calls wrote.

  Main statements:
  - `length_eq_dedup_add_countP`: the duplicates that a journal notes, counted.
  - `Chain.linkAll_log`: the log of a linking.
  - `Filling.at_call`: the state in which a pass makes a call.
  - `Filling.log`: the registry's part of the log of a pass.
  - `Filling.replacement`: each replacement noted is one that a call made.
  - `duplicates_accounted`: both accounts of a completed boot.
-/
import BoxedRuntime.Proofs.Startup.Queries

namespace BoxedRuntime

/-! ## Journals -/

section Journals

variable {α β : Type} {note : List α → α → List β}

/-- What is written at each element, in sight of those before it. -/
def journal (note : List α → α → List β) : List α → List α → List β
  | _, [] => []
  | earlier, a :: as => note earlier a ++ journal note (earlier ++ [a]) as

theorem journal_append (earlier as bs : List α) :
    journal note earlier (as ++ bs) = journal note earlier as ++ journal note (earlier ++ as) bs := by
  induction as generalizing earlier with
  | nil => rw [List.nil_append, List.append_nil]; rfl
  | cons a as ih => rw [List.cons_append, journal, journal, ih, List.append_assoc, List.append_assoc]; rfl

/-- An element of two lists together is one of the first or one of the second. -/
theorem append_split {as bs pre post : List β} {b : β} (h : as ++ bs = pre ++ b :: post) :
    (∃ rest, as = pre ++ b :: rest) ∨ ∃ pre', pre = as ++ pre' ∧ bs = pre' ++ b :: post := by
  rcases List.append_eq_append_iff.mp h with h | ⟨rest, has, hbs⟩
  · exact .inr h
  · cases rest with
    | nil => exact .inr ⟨[], by rw [has, List.append_nil, List.append_nil], hbs.symm⟩
    | cons c rest =>
      obtain ⟨rfl, -⟩ := List.cons.inj hbs
      exact .inl ⟨rest, has⟩

/-- Whatever was written, was written at one of the elements. -/
theorem journal_split {earlier as : List α} {pre post : List β} {b : β}
    (h : journal note earlier as = pre ++ b :: post) :
    ∃ before a after first rest, as = before ++ a :: after ∧ note (earlier ++ before) a = first ++ b :: rest ∧
      pre = journal note earlier before ++ first := by
  induction as generalizing earlier pre with
  | nil => exact absurd h.symm (List.append_ne_nil_of_right_ne_nil pre (List.cons_ne_nil b post))
  | cons a as ih =>
    rw [journal] at h
    rcases append_split h with ⟨rest, hnote⟩ | ⟨pre', rfl, hrest⟩
    · exact ⟨[], a, as, pre, rest, rfl, by rw [List.append_nil, hnote], rfl⟩
    · obtain ⟨before, c, after, first, rest, rfl, hnote, rfl⟩ := ih hrest
      refine ⟨a :: before, c, after, first, rest, rfl, ?_, ?_⟩
      · rw [← hnote, List.append_assoc]
        rfl
      · rw [journal, List.append_assoc]

variable [DecidableEq α]

theorem dedup_concat_length (as : List α) (a : α) :
    (as ++ [a]).dedup.length + (if a ∈ as then 1 else 0) = as.dedup.length + 1 := by
  rw [(List.perm_append_singleton a as).dedup.length_eq]
  split
  · rw [List.dedup_cons_of_mem ‹_›]
  · rw [List.dedup_cons_of_notMem ‹_›, List.length_cons]

theorem length_add_dedup {p : β → Bool} (hnote : ∀ earlier a, (note earlier a).countP p = if a ∈ earlier then 1 else 0)
    (earlier as : List α) : as.length + earlier.dedup.length =
      (earlier ++ as).dedup.length + (journal note earlier as).countP p := by
  induction as generalizing earlier with
  | nil => simp [journal]
  | cons a as ih =>
    have hrest := ih (earlier ++ [a])
    have hdedup := dedup_concat_length earlier a
    rw [List.append_assoc] at hrest
    rw [journal, List.countP_append, hnote, List.length_cons]
    simp only [List.singleton_append] at hrest
    omega

/-- If just the elements that occurred before are marked, the marks count the others. -/
theorem length_eq_dedup_add_countP {p : β → Bool}
    (hnote : ∀ earlier a, (note earlier a).countP p = if a ∈ earlier then 1 else 0) (as : List α) :
    as.length = as.dedup.length + (journal note [] as).countP p :=
  length_add_dedup hnote [] as

end Journals

/-! ## Linking -/

namespace Chain

/-- What is logged at the link of a name, after the links of these. -/
def linkNote (earlier : List String) (name : String) : List LogRecord :=
  if name ∈ earlier then [repeatedRecord name, linkingRecord name] else [linkingRecord name]

def isWarning (r : LogRecord) : Bool := r.level == .warn

theorem countP_linkNote (earlier : List String) (name : String) :
    (linkNote earlier name).countP isWarning = if name ∈ earlier then 1 else 0 := by
  unfold linkNote
  split <;> rfl

theorem linkNote_split {earlier : List String} {name : String} {pre post : List LogRecord} {r : LogRecord}
    (h : linkNote earlier name = pre ++ r :: post) (hr : isWarning r = true) :
    name ∈ earlier ∧ pre = [] ∧ r = repeatedRecord name := by
  unfold linkNote at h
  split at h
  · rcases pre with _ | ⟨_, _ | ⟨_, pre⟩⟩
    · cases h; exact ⟨‹_›, rfl, rfl⟩
    · cases h; cases hr
    · simp at h
  · rcases pre with _ | ⟨_, pre⟩
    · cases h; cases hr
    · simp at h

variable {C : Type}

theorem link_log (c : Chain C) (i : Initializer C) (s : Session) {earlier : List String}
    (h : ∀ name, c.contains name = true ↔ name ∈ earlier) :
    (c.link i s).2.log.toList = s.log.toList ++ linkNote earlier i.name := by
  rw [link_apply, linkNote]
  by_cases hname : i.name ∈ earlier
  · rw [if_pos ((h i.name).mpr hname), if_pos hname]
    simp [Session.write]
  · rw [if_neg (fun hc => hname ((h i.name).mp hc)), if_neg hname]
    simp [Session.write]

theorem contains_cons (c : Chain C) (i : Initializer C) {earlier : List String}
    (h : ∀ name, c.contains name = true ↔ name ∈ earlier) (name : String) :
    (Chain.mk (i :: c.walk) (c.linked + 1)).contains name = true ↔ name ∈ earlier ++ [i.name] := by
  have hwalk : (Chain.mk (i :: c.walk) (c.linked + 1)).contains name = (i.name == name || c.contains name) := rfl
  rw [hwalk, Bool.or_eq_true, beq_iff_eq, h, List.mem_append, List.mem_singleton, or_comm, eq_comm]

theorem linkAll_log (is : List (Initializer C)) (c : Chain C) (s : Session) (earlier : List String)
    (h : ∀ name, c.contains name = true ↔ name ∈ earlier) :
    (c.linkAll is s).2.log.toList = s.log.toList ++ journal linkNote earlier (is.map (·.name)) := by
  induction is generalizing c s earlier with
  | nil => exact (List.append_nil _).symm
  | cons i is ih =>
    have hrest := ih ⟨i :: c.walk, c.linked + 1⟩ (c.link i s).2 (earlier ++ [i.name]) (contains_cons c i h)
    rw [link_log c i s h, List.append_assoc] at hrest
    rw [linkAll, List.foldlM_cons, Op.bind_apply, link_apply]
    rw [link_apply] at hrest
    exact hrest

end Chain

/-! ## Filling a registry -/

namespace Registry

/-- What is logged at the registration of a key, after those of these keys. -/
def registerNote (earlier : List RoutineKey) (k : RoutineKey) : List LogRecord :=
  registrationRecord k.name k.signature :: if k ∈ earlier then [replacementRecord k.name k.signature] else []

def speaks (r : LogRecord) : Bool := r.target == logTarget

/-- Of the records under the registry's target, those of level `debug` are about replacements. -/
def isReplacement (r : LogRecord) : Bool := speaks r && r.level == .debug

theorem countP_registerNote (earlier : List RoutineKey) (k : RoutineKey) :
    (registerNote earlier k).countP isReplacement = if k ∈ earlier then 1 else 0 := by
  unfold registerNote
  split <;> rfl

theorem filter_registerNote (earlier : List RoutineKey) (k : RoutineKey) :
    (registerNote earlier k).filter speaks = registerNote earlier k := by
  unfold registerNote
  split <;> rfl

theorem registerNote_split {earlier : List RoutineKey} {k : RoutineKey} {pre post : List LogRecord} {r : LogRecord}
    (h : registerNote earlier k = pre ++ r :: post) (hr : isReplacement r = true) :
    k ∈ earlier ∧ pre = [registrationRecord k.name k.signature] ∧ r = replacementRecord k.name k.signature := by
  unfold registerNote at h
  rcases pre with _ | ⟨_, pre⟩
  · cases h
    cases hr
  · obtain ⟨rfl, h⟩ := List.cons.inj h
    split at h
    · rcases pre with _ | ⟨_, pre⟩
      · cases h; exact ⟨‹_›, rfl, rfl⟩
      · simp at h
    · simp at h

/-- What these calls log on an empty registry. -/
def callLog (calls : List Registration) : List LogRecord := journal registerNote [] (calls.map (·.key))

def enter (x : Registration) (p : Registry × Session) : Registry × Session :=
  (register x.key.name x.key.signature x.routine p).2

end Registry

open Registry

theorem Registry.enter_registry (x : Registration) (p : Registry × Session) :
    (enter x p).1 = p.1.insertAll [x] := by
  obtain ⟨registry, s⟩ := p
  rw [enter, register_apply]
  rfl

theorem Registry.enter_insertAll (x : Registration) (calls : List Registration) (s : Session) :
    (enter x (empty.insertAll calls, s)).1 = empty.insertAll (calls ++ [x]) := by
  rw [enter_registry, insertAll_append]

theorem Registry.mem_keys_iff_contains {x : Registration} {calls : List Registration} :
    x.key ∈ calls.map (·.key) ↔ (empty.insertAll calls).contains x.key.name x.key.signature = true :=
  (contains_insertAll.trans List.mem_map.symm).symm

theorem Registry.enter_log (x : Registration) (s : Session) (calls : List Registration) :
    (enter x (empty.insertAll calls, s)).2.log.toList =
      s.log.toList ++ registerNote (calls.map (·.key)) x.key := by
  rw [enter, register_apply, registerNote]
  by_cases hknown : x.key ∈ calls.map (·.key)
  · rw [if_pos (mem_keys_iff_contains.mp hknown), if_pos hknown]
    simp [Session.write]
  · rw [if_neg (fun hc => hknown (mem_keys_iff_contains.mpr hc)), if_neg hknown]
    simp [Session.write]

/-- The register calls made from one state to another, in their order. What else is done
    leaves the registry alone; `between` says what it may do to the session. -/
inductive Filling (between : Session → Session → Prop) :
    Registry × Session → List Registration → Registry × Session → Prop
  | none (p : Registry × Session) : Filling between p [] p
  | call {p q : Registry × Session} {x : Registration} {calls : List Registration} :
      Filling between (enter x p) calls q → Filling between p (x :: calls) q
  | other {registry : Registry} {s s' : Session} {q : Registry × Session} {calls : List Registration} :
      between s s' → Filling between (registry, s') calls q → Filling between (registry, s) calls q

def Anything (_ _ : Session) : Prop := True

/-- The session went on, and nothing was logged under the registry's target. -/
def Unspoken (s s' : Session) : Prop :=
  ∃ records, s'.log.toList = s.log.toList ++ records ∧ ∀ r ∈ records, speaks r = false

namespace Filling

variable {between : Session → Session → Prop} {p q m : Registry × Session} {calls later : List Registration}

theorem append (h : Filling between p calls m) (hlater : Filling between m later q) :
    Filling between p (calls ++ later) q := by
  induction h with
  | none => exact hlater
  | call _ ih => exact .call (ih hlater)
  | other hs _ ih => exact .other hs (ih hlater)

theorem registry (h : Filling between p calls q) : q.1 = p.1.insertAll calls := by
  induction h with
  | none => rfl
  | call _ ih => rw [ih, enter_registry]; rfl
  | other _ _ ih => exact ih

/-- The call is made on the registry that the calls before it filled. -/
theorem at_call (h : Filling between p calls q) {before after : List Registration} {x : Registration}
    (hcalls : calls = before ++ x :: after) : ∃ s, Filling between p before (p.1.insertAll before, s) ∧
      Filling between (enter x (p.1.insertAll before, s)) after q := by
  induction h generalizing before with
  | none p => exact absurd hcalls.symm (List.append_ne_nil_of_right_ne_nil before (List.cons_ne_nil x after))
  | @call p q y calls hrest ih =>
    cases before with
    | nil =>
      cases hcalls
      exact ⟨p.2, .none p, hrest⟩
    | cons z before =>
      obtain ⟨rfl, hrest'⟩ := List.cons.inj hcalls
      obtain ⟨s, hbefore, hafter⟩ := ih hrest'
      rw [enter_registry] at hbefore hafter
      exact ⟨s, .call hbefore, hafter⟩
  | other hs _ ih =>
    obtain ⟨s, hbefore, hafter⟩ := ih hcalls
    exact ⟨s, .other hs hbefore, hafter⟩

/-- The registry's part of the log. -/
theorem log (h : Filling Unspoken p calls q) (seen : List Registration) (hseen : p.1 = empty.insertAll seen) :
    ∃ records, q.2.log.toList = p.2.log.toList ++ records ∧
      records.filter speaks = journal registerNote (seen.map (·.key)) (calls.map (·.key)) := by
  induction h generalizing seen with
  | none p => exact ⟨[], (List.append_nil _).symm, rfl⟩
  | @call p q x calls _ ih =>
    obtain ⟨registry, s⟩ := p
    obtain rfl : registry = empty.insertAll seen := hseen
    obtain ⟨records, hlog, hrecords⟩ := ih (seen ++ [x]) (enter_insertAll x seen s)
    refine ⟨registerNote (seen.map (·.key)) x.key ++ records, ?_, ?_⟩
    · rw [hlog, enter_log, List.append_assoc]
    · rw [List.filter_append, filter_registerNote, hrecords, List.map_append]
      rfl
  | other hs _ ih =>
    obtain ⟨others, hothers, hunspoken⟩ := hs
    obtain ⟨records, hlog, hrecords⟩ := ih seen hseen
    refine ⟨others ++ records, ?_, ?_⟩
    · rw [hlog, hothers, List.append_assoc]
    · have hnone : others.filter speaks = [] :=
        List.filter_eq_nil_iff.mpr fun r hr => Bool.not_eq_true _ ▸ hunspoken r hr
      rw [List.filter_append, hnone, List.nil_append, hrecords]

/-- A replacement is noted by a call that finds its key registered. -/
theorem replacement (h : Filling Unspoken p calls q) (seen : List Registration) (hseen : p.1 = empty.insertAll seen)
    {pre post : List LogRecord} {r : LogRecord} (hlog : q.2.log.toList = p.2.log.toList ++ (pre ++ r :: post))
    (hr : isReplacement r = true) :
    ∃ before x after registry s, calls = before ++ x :: after ∧ Filling Unspoken p before (registry, s) ∧
      Filling Unspoken (enter x (registry, s)) after q ∧ registry.contains x.key.name x.key.signature = true ∧
      p.2.log.toList ++ pre = s.log.toList ++ [registrationRecord x.key.name x.key.signature] ∧
      r = replacementRecord x.key.name x.key.signature := by
  induction h generalizing seen pre with
  | none p => simp at hlog
  | @call p q x calls hrest ih =>
    obtain ⟨registry, s⟩ := p
    obtain rfl : registry = empty.insertAll seen := hseen
    obtain ⟨records, hrecords, -⟩ := hrest.log (seen ++ [x]) (enter_insertAll x seen s)
    rw [hrecords, enter_log, List.append_assoc] at hlog
    rcases append_split (List.append_cancel_left hlog) with ⟨rest, hnote⟩ | ⟨pre', rfl, hlater⟩
    · obtain ⟨hknown, rfl, rfl⟩ := registerNote_split hnote hr
      exact ⟨[], x, calls, _, s, rfl, .none _, hrest, mem_keys_iff_contains.mp hknown, rfl, rfl⟩
    · obtain ⟨before, y, after, registry, t, rfl, hbefore, hafter, hknown, hpre, hy⟩ :=
        ih (seen ++ [x]) (enter_insertAll x seen s) (hlater ▸ hrecords)
      refine ⟨x :: before, y, after, registry, t, rfl, .call hbefore, hafter, hknown, ?_, hy⟩
      rw [← hpre, enter_log, List.append_assoc]
  | other hs hrest ih =>
    obtain ⟨others, hothers, hunspoken⟩ := hs
    obtain ⟨records, hrecords, -⟩ := hrest.log seen hseen
    rw [hrecords, hothers, List.append_assoc] at hlog
    rcases append_split (List.append_cancel_left hlog) with ⟨rest, hnote⟩ | ⟨pre', rfl, hlater⟩
    · have hspeaks := hunspoken r (hnote ▸ List.mem_append_right pre List.mem_cons_self)
      rw [isReplacement, hspeaks] at hr
      cases hr
    · obtain ⟨before, y, after, registry, t, rfl, hbefore, hafter, hknown, hpre, hy⟩ :=
        ih seen hseen (hlater ▸ hrecords)
      refine ⟨before, y, after, registry, t, rfl, .other ⟨others, hothers, hunspoken⟩ hbefore, hafter, hknown, ?_, hy⟩
      rw [← hpre, hothers, List.append_assoc]

end Filling

/-! ## Callbacks -/

/-- What the callback does besides registering goes from session to session like this. -/
def Registrar.Between (between : Session → Session → Prop) : Registrar → Prop
  | done => True
  | register _ _ rest => rest.Between between
  | other x rest => (∀ registry s, between s (x registry s).2) ∧ ∀ a, (rest a).Between between

/-- Between its registrations the callback logs nothing under the registry's target. -/
def Registrar.Quiet (c : Registrar) : Prop := c.Between Unspoken

theorem Registrar.between_anything (c : Registrar) : c.Between Anything := by
  induction c with
  | done => trivial
  | register k f rest ih => exact ih
  | other x rest ih => exact ⟨fun _ _ => trivial, ih⟩

theorem Registrar.quiet_ofList (rs : List Registration) : (ofList rs).Quiet := by
  induction rs with
  | nil => trivial
  | cons x rest ih => exact ih

theorem Registrar.made_ofList (rs : List Registration) (p : Registry × Session) : (ofList rs).made p = rs := by
  induction rs generalizing p with
  | nil => rfl
  | cons x rest ih => exact congrArg (x :: ·) (ih _)

/-- Callbacks that make the same registrations in every state. -/
theorem Chain.registrations_eq_flatMap {steps : Module → Registrar} {made : Module → List Registration}
    {ms : List Module} (h : ∀ m ∈ ms, ∀ p, (steps m).made p = made m) (p : Registry × Session) :
    registrations steps ms p = ms.flatMap made := by
  induction ms generalizing p with
  | nil => rfl
  | cons m ms ih =>
    rw [registrations, h m List.mem_cons_self, ih (fun n hn => h n (List.mem_cons_of_mem m hn)), List.flatMap_cons]

theorem Registrar.filling {between : Session → Session → Prop} {c : Registrar} (hc : c.Between between)
    {p q : Registry × Session} (h : c.run p = (.ok (), q)) : Filling between p (c.made p) q := by
  induction c generalizing p with
  | done => cases h; exact .none _
  | register k f rest ih =>
    obtain ⟨registry, s⟩ := p
    rw [run, Startup.bind_apply, Registry.register_apply] at h
    refine .call ?_
    rw [enter, Registry.register_apply]
    exact ih hc h
  | other x rest ih =>
    obtain ⟨registry, s⟩ := p
    obtain ⟨hx, hrest⟩ := hc
    have hs := hx registry s
    rw [run, Startup.bind_apply] at h
    simp only [Startup.reading, ExceptT.mk] at h
    rw [made]
    rcases hrun : x registry s with ⟨f | a, s'⟩
    · rw [hrun] at h
      cases h
    · rw [hrun] at h hs
      exact .other hs (ih a (hrest a) h)

theorem Unspoken.write {s : Session} {r : LogRecord} (h : speaks r = false) : Unspoken s (s.write r) :=
  ⟨[r], by simp [Session.write], by simpa using h⟩

theorem registerAll_filling {between : Session → Session → Prop} {steps : Module → Registrar} {ms : List Module}
    (hannounce : ∀ name s, between s (s.write (Chain.registeringRecord name)))
    (hsteps : ∀ m ∈ ms, m.register = (steps m).run) (hbetween : ∀ m ∈ ms, (steps m).Between between)
    {p q : Registry × Session} (h : Chain.registerAll ms p = (.ok (), q)) :
    Filling between p (Chain.registrations steps ms p) q := by
  induction ms generalizing p with
  | nil => cases h; exact .none _
  | cons m ms ih =>
    obtain ⟨registry, s⟩ := p
    rw [Chain.registerAll_cons_apply, hsteps m List.mem_cons_self] at h
    rw [Chain.registrations]
    refine .other (hannounce m.name s) ?_
    rcases hrun : (steps m).run (registry, s.write (Chain.registeringRecord m.name)) with ⟨f | _, p'⟩
    · rw [hrun] at h
      cases h
    · rw [hrun] at h
      refine (Registrar.filling (hbetween m List.mem_cons_self) hrun).append ?_
      exact ih (fun n hn => hsteps n (List.mem_cons_of_mem m hn)) (fun n hn => hbetween n (List.mem_cons_of_mem m hn)) h

/-! ## The accounts of a boot -/

/-- The log of a linking of modules with these names, in link order. -/
structure Chain.LinksAccounted (names : List String) (records : List LogRecord) : Prop where
  written : records = journal linkNote [] names
  counted : names.length = names.dedup.length + records.countP isWarning
  /-- A link is warned of exactly if an earlier one had the name. -/
  warned : ∀ before name after, names = before ++ name :: after →
    (name ∈ before ↔ ∃ post, records = journal linkNote [] before ++ repeatedRecord name :: post)
  /-- There are no other warnings. -/
  warnings : ∀ pre r post, records = pre ++ r :: post → isWarning r = true →
    ∃ before name after, names = before ++ name :: after ∧ name ∈ before ∧ r = repeatedRecord name ∧
      pre = journal linkNote [] before

/-- A register pass that made these calls on an empty registry. -/
structure Registry.CallsAccounted (calls : List Registration) (start : Session) (filled : Registry × Session) :
    Prop where
  /-- What each call finds and what it logs. -/
  each : ∀ before x after, calls = before ++ x :: after →
    ∃ s, Filling Anything (empty, start) before (empty.insertAll before, s) ∧
      (x.key ∈ before.map (·.key) ↔ (empty.insertAll before).contains x.key.name x.key.signature = true) ∧
      (enter x (empty.insertAll before, s)).2.log.toList = s.log.toList ++ registerNote (before.map (·.key)) x.key ∧
      Filling Anything (enter x (empty.insertAll before, s)) after filled
  registry : filled.1 = empty.insertAll calls
  counted : calls.length = filled.1.size + (callLog calls).countP isReplacement

/-- The log of such a pass. -/
structure Registry.LogAccounted (calls : List Registration) (start : Session) (filled : Registry × Session)
    (records : List LogRecord) : Prop where
  grown : filled.2.log.toList = start.log.toList ++ records
  /-- Under the registry's target it is what the calls wrote. -/
  spoken : records.filter speaks = callLog calls
  counted : calls.length = filled.1.size + records.countP isReplacement
  /-- A replacement is noted by a call in the middle of the pass, the key being registered. -/
  replaced : ∀ pre r post, records = pre ++ r :: post → isReplacement r = true →
    ∃ before x after registry s, calls = before ++ x :: after ∧ Filling Unspoken (empty, start) before (registry, s) ∧
      Filling Unspoken (enter x (registry, s)) after filled ∧ registry.contains x.key.name x.key.signature = true ∧
      start.log.toList ++ pre = s.log.toList ++ [registrationRecord x.key.name x.key.signature] ∧
      r = replacementRecord x.key.name x.key.signature

theorem Chain.links_accounted (names : List String) : LinksAccounted names (journal linkNote [] names) where
  written := rfl
  counted := length_eq_dedup_add_countP countP_linkNote names
  warned before name after h := by
    rw [h, journal_append, journal, List.nil_append]
    unfold linkNote
    constructor
    · intro hname
      rw [if_pos hname]
      exact ⟨_, rfl⟩
    · rintro ⟨post, hpost⟩
      by_contra hname
      rw [if_neg hname] at hpost
      cases List.append_cancel_left hpost
  warnings pre r post h hr := by
    obtain ⟨before, name, after, first, rest, hnames, hnote, rfl⟩ := journal_split h
    obtain ⟨hname, rfl, rfl⟩ := linkNote_split hnote hr
    exact ⟨before, name, after, hnames, hname, rfl, List.append_nil _⟩

theorem Filling.calls_accounted {calls : List Registration} {start : Session} {filled : Registry × Session}
    (h : Filling Anything (empty, start) calls filled) : CallsAccounted calls start filled where
  each before x after hcalls := by
    obtain ⟨s, hbefore, hafter⟩ := h.at_call hcalls
    exact ⟨s, hbefore, mem_keys_iff_contains, enter_log x s before, hafter⟩
  registry := h.registry
  counted := by
    have hsize : filled.1.size = (calls.map (·.key)).dedup.length := by
      rw [h.registry]
      exact (mapOf_insertAll calls).size.2
    have hcalls := length_eq_dedup_add_countP countP_registerNote (calls.map (·.key))
    rw [List.length_map] at hcalls
    rw [hsize]
    exact hcalls

theorem Filling.log_accounted {calls : List Registration} {start : Session} {filled : Registry × Session}
    (h : Filling Unspoken (empty, start) calls filled) (hcalls : CallsAccounted calls start filled) :
    ∃ records, LogAccounted calls start filled records := by
  obtain ⟨records, hgrown, hspoken⟩ := h.log [] rfl
  refine ⟨records, hgrown, hspoken, ?_, fun pre r post hsplit hr => h.replacement [] rfl (hsplit ▸ hgrown) hr⟩
  have hcount : records.countP isReplacement = (records.filter speaks).countP isReplacement := by
    rw [List.countP_filter]
    exact List.countP_congr fun r _ => by simp only [isReplacement, Bool.and_eq_true]; tauto
  rw [hcount, hspoken]
  exact hcalls.counted

theorem Boot.opened_log (extensions extra : List Module) (s : Session) :
    (opened extensions extra s).log.toList = s.log.toList ++
      journal Chain.linkNote [] ((linkOrder extensions extra).map (·.name)) ++
      [bootingRecord ((linkOrder extensions extra).map (·.name)).reverse] := by
  have hlinked := Chain.linkAll_log (linkOrder extensions extra) Chain.empty s [] fun name => by
    simp [Chain.contains, Chain.empty]
  rw [opened, ← List.map_reverse, Session.write, Array.toList_push]
  exact congrArg (· ++ _) hlinked

/-- A completed boot accounts for every module that has the name of another and for every
    call that registers a key again. If its callbacks are quiet, the log shows as much. -/
theorem duplicates_accounted {extensions extra : List Module} {s s' : Session} {r : Runtime}
    (h : Runtime.boot extensions extra s = (.ok r, s')) :
    (∃ records,
        (Boot.opened extensions extra s).log.toList = s.log.toList ++ records ++ [Boot.bootingRecord r.modules] ∧
        Chain.LinksAccounted r.modules.reverse records) ∧
      ∀ steps : Module → Registrar, (∀ m ∈ Boot.linkOrder extensions extra, m.register = (steps m).run) →
        let walk := (Boot.linkOrder extensions extra).reverse
        let start := Boot.opened extensions extra s
        let calls := Chain.registrations steps walk (empty, start)
        ∃ t, Chain.registerAll walk (empty, start) = (.ok (), r.registry, t) ∧
          CallsAccounted calls start (r.registry, t) ∧
          ((∀ m ∈ Boot.linkOrder extensions extra, (steps m).Quiet) →
            ∃ records, LogAccounted calls start (r.registry, t) records) := by
  obtain ⟨hnames, t, -, hreg, -⟩ := Runtime.boot_ok h
  constructor
  · rw [hnames, List.reverse_reverse]
    exact ⟨_, Boot.opened_log extensions extra s, Chain.links_accounted _⟩
  · intro steps hsteps walk start calls
    have hsteps' : ∀ m ∈ walk, m.register = (steps m).run := fun m hm => hsteps m (List.mem_reverse.mp hm)
    have hcalls : CallsAccounted calls start (r.registry, t) :=
      (registerAll_filling (fun _ _ => trivial) hsteps' (fun m _ => (steps m).between_anything) hreg).calls_accounted
    refine ⟨t, hreg, hcalls, fun hquiet => ?_⟩
    have hquiet' : ∀ m ∈ walk, (steps m).Between Unspoken := fun m hm => hquiet m (List.mem_reverse.mp hm)
    have hannounce : ∀ name s, Unspoken s (s.write (Chain.registeringRecord name)) := fun _ _ => .write rfl
    exact (registerAll_filling hannounce hsteps' hquiet' hreg).log_accounted hcalls

/-- A module linked twice that registers one key twice, logs something, and takes a key of
    the builtin modules: ten calls on five keys, four links of three names. -/
theorem twins_accounted :
    let pick : RoutineKey := ⟨"pick", ⟨"[^i]"⟩⟩
    let toChar : RoutineKey := ⟨Conversion.toChar.name, Conversion.toChar.signature⟩
    let callback : Registrar := .register pick (fun _ => Boxing.int 1) <| .register toChar (fun _ => Boxing.int 2) <|
      .other (fun _ => Op.emit ⟨.debug, "twin", "once more"⟩) fun _ => .register pick (fun _ => Boxing.int 3) .done
    let twin := asking "twin" [] callback
    ∃ r s' links calls t records, Runtime.boot [twin] [twin] {} = (.ok r, s') ∧
      Chain.LinksAccounted r.modules.reverse links ∧ r.modules.length = 4 ∧ links.countP Chain.isWarning = 1 ∧
      CallsAccounted calls (Boot.opened [twin] [twin] {}) (r.registry, t) ∧
      LogAccounted calls (Boot.opened [twin] [twin] {}) (r.registry, t) records ∧ calls.length = 10 ∧
      r.registry.size = 5 ∧ records.countP isReplacement = 5 := by
  intro pick toChar callback twin
  let steps := Builtin.stepsOr fun _ => callback
  have hbuiltin : ∀ roster ∈ Builtin.rosters, steps roster.module = .ofList roster.registrations :=
    fun _ hroster => Builtin.stepsOr_roster _ hroster
  have horder : Boot.linkOrder [twin] [twin] =
      [Builtin.convertRoster.module, Builtin.textRoster.module, twin, twin] := by
    rw [linkOrder_singleton, ← Builtin.rosters_module]
    rfl
  have hmem : ∀ m ∈ Boot.linkOrder [twin] [twin], (∃ roster ∈ Builtin.rosters, roster.module = m) ∨ m = twin := by
    rw [horder]
    simp [Builtin.rosters]
  have hsteps : ∀ m ∈ Boot.linkOrder [twin] [twin], m.register = (steps m).run := by
    intro m hm
    rcases hmem m hm with ⟨roster, hroster, rfl⟩ | rfl
    · exact Builtin.register_eq_run _ hroster
    · rfl
  have hquiet : ∀ m ∈ Boot.linkOrder [twin] [twin], (steps m).Quiet := by
    intro m hm
    rcases hmem m hm with ⟨roster, hroster, rfl⟩ | rfl
    · rw [hbuiltin roster hroster]
      exact Registrar.quiet_ofList _
    · exact ⟨fun _ _ => Unspoken.write (r := ⟨.debug, "twin", "once more"⟩) rfl, fun _ => trivial⟩
  have hregister : ∀ p, ∃ q, twin.register p = (.ok (), q) := by
    rintro ⟨registry, s⟩
    show ∃ q, callback.run (registry, s) = _
    simp only [callback, Registrar.run, Startup.bind_apply, register_apply, Startup.reading, ExceptT.mk, Op.emit_apply]
    exact ⟨_, rfl⟩
  obtain ⟨r, s', hboot⟩ : ∃ r s', Runtime.boot [twin] [twin] {} = (.ok r, s') := by
    refine boot_completes_of ?_ ?_ {}
    all_goals
      intro m hm
      obtain rfl : m = twin := by simpa using hm
    · exact hregister
    · exact fun registry s => ⟨_, s, rfl⟩
  obtain ⟨⟨links, -, hlinks⟩, hcalls⟩ := duplicates_accounted hboot
  obtain ⟨t, -, hcalls, hlog⟩ := hcalls steps hsteps
  obtain ⟨records, hlog⟩ := hlog hquiet
  have hmodules : r.modules = ["twin", "twin", "text", "convert"] := by
    rw [(Runtime.boot_ok hboot).1, horder]
    rfl
  have hmade : ∀ m ∈ (Boot.linkOrder [twin] [twin]).reverse, ∀ p, (steps m).made p = (steps m).made (empty, {}) := by
    intro m hm p
    rcases hmem m (List.mem_reverse.mp hm) with ⟨roster, hroster, rfl⟩ | rfl
    · rw [hbuiltin roster hroster, Registrar.made_ofList, Registrar.made_ofList]
    · rfl
  have hkeys : (Chain.registrations steps (Boot.linkOrder [twin] [twin]).reverse
      (empty, Boot.opened [twin] [twin] {})).map (·.key) = [pick, toChar, pick] ++ [pick, toChar, pick] ++
        [⟨Rendering.name, Rendering.signature⟩] ++ Conversion.shipped.map fun c => ⟨c.name, c.signature⟩ := by
    rw [Chain.registrations_eq_flatMap hmade, horder]
    rfl
  generalize Chain.registrations steps _ _ = calls at hcalls hlog hkeys
  have hlength : calls.length = 10 := by
    rw [← List.length_map (f := (·.key)), hkeys]
    rfl
  have hsize : r.registry.size = 5 := by
    rw [show r.registry = _ from hcalls.registry, (mapOf_insertAll calls).size.2, hkeys]
    decide +kernel
  have hwarnings := hlinks.counted
  have hreplacements := hlog.counted
  rw [hmodules] at hwarnings
  rw [hlength, hsize] at hreplacements
  refine ⟨r, s', links, calls, t, records, hboot, hlinks, by rw [hmodules]; rfl, ?_, hcalls, hlog, hlength, hsize, ?_⟩
  · have hdistinct : ["twin", "twin", "text", "convert"].reverse.dedup.length = 3 := by decide +kernel
    rw [hdistinct] at hwarnings
    exact (Nat.add_left_cancel hwarnings).symm
  · exact (Nat.add_left_cancel hreplacements).symm

/-- The record is of level `debug` and has the words of a replacement in it, whoever wrote it. -/
def readsReplaced (r : LogRecord) : Bool :=
  r.level == .debug && r.message.toList.tails.any ("re-registered; last registration wins".toList.isPrefixOf ·)

/-- The record that each call writes before anything else. -/
def isRegistration (r : LogRecord) : Bool := speaks r && r.level == .trace

/-- The calls of the pass, the routines in the end, and the replacements by the log: of a
    module that empties the registry, of one that writes a record in the registry's name,
    and of one that has the words of a replacement for its own name. Each registers one
    key beside the four of the builtin modules, and nobody registers a key twice. -/
theorem replacements_unaccounted :
    let pick : RoutineKey := ⟨"pick", ⟨"[^i]"⟩⟩
    let one : Routine := fun _ => Boxing.int 1
    let forger : Module := {
      name := "forger"
      register := do
        Registry.register pick.name pick.signature one
        Op.emit (replacementRecord pick.name pick.signature) }
    let namesake : Module := {
      name := "routine pick [^i] re-registered; last registration wins"
      register := Registry.register pick.name pick.signature one }
    let accounts (m : Module) (isReplaced : LogRecord → Bool) : Nat × Nat × Nat :=
      let start := Boot.opened [] [m] {}
      let filled := (Chain.registerAll (Boot.linkOrder [] [m]).reverse (empty, start)).2
      let records := filled.2.log.toList.drop start.log.size
      (records.countP isRegistration, filled.1.size, records.countP isReplaced)
    (∃ r s', Runtime.boot [] [erasing "eraser" pick one] {} = (.ok r, s')) ∧
      accounts (erasing "eraser" pick one) isReplacement = (5, 4, 0) ∧
      (∃ r s', Runtime.boot [] [forger] {} = (.ok r, s')) ∧ accounts forger isReplacement = (5, 5, 1) ∧
      (∃ r s', Runtime.boot [] [namesake] {} = (.ok r, s')) ∧ accounts namesake readsReplaced = (5, 5, 1) := by
  intro pick one forger namesake accounts
  have boots : ∀ m : Module, (match Runtime.boot [] [m] {} with | (.ok _, _) => true | _ => false) = true →
      ∃ r s', Runtime.boot [] [m] {} = (.ok r, s') := by
    intro m h
    split at h
    · exact ⟨_, _, ‹_›⟩
    · cases h
  refine ⟨boots _ ?_, ?_, boots _ ?_, ?_, boots _ ?_, ?_⟩ <;> decide +kernel

end BoxedRuntime
