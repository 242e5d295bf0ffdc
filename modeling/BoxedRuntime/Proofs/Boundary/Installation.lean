/-
  BoxedRuntime.Proofs.Boundary.Installation — which runtime is installed.

  Three events change it: `init` boots a runtime unless there is one, `install` replaces
  the one there is, `shutdown` leaves none. The calls of compiled code use the runtime and
  leave it where it is. So the events since the last shutdown tell which one it is: that
  of the last `install`, or without any the one that the first `init` booted.

  Main statements:
  - `Request.enter_keeps`: no call of compiled code changes what is installed.
  - `Event.moves`: what one event does to it.
  - `history_none_iff`, `latest_install`, `first_init`: what a run of events does to it.
  - `Entry.call_answers`: a call faults with the first of its arguments that is not valid,
    and only then asks for the runtime.
  - `installed_follows`: the runtime after a run of events, and the calls into it.
-/
import BoxedRuntime.Proofs.Boundary.Refinement
import BoxedRuntime.Proofs.Startup.Queries

namespace BoxedRuntime

variable {α β : Type}

/-! ## Calls leave it alone -/

/-- However the call ends, the runtime installed is the one from before. -/
def Entry.Keeps (x : Entry α) : Prop := ∀ p, (x p).2.1.installed = p.1.installed

namespace Entry.Keeps

theorem pure (a : α) : Keeps (Pure.pure a) := fun _ => rfl

theorem lift (o : Op α) : Keeps (liftM o) := by
  rintro ⟨b, s⟩
  rw [Mirrors.lift o s]
  rcases o s with ⟨_ | _, _⟩ <;> rfl

theorem bind {x : Entry α} {k : α → Entry β} (hx : x.Keeps) (hk : ∀ a, (k a).Keeps) : (x >>= k).Keeps := by
  intro p
  have hp := hx p
  rw [Entry.bind_apply]
  rcases hrun : x p with ⟨e | a, p'⟩
  · rw [hrun] at hp
    exact hp
  · rw [hrun] at hp
    exact (hk a p').trans hp

theorem map {x : Entry α} (hx : x.Keeps) (f : α → β) : (f <$> x).Keeps := by
  rw [map_eq_pure_bind]
  exact hx.bind fun a => pure (f a)

theorem give (x : Handle) : (Entry.give x).Keeps := fun _ => rfl

theorem checked (p : Pointer Nat) (label : String) : (Entry.checked p label).Keeps := by
  have hresolve : (Entry.resolve p).Keeps := by
    cases p with
    | object id =>
      refine bind (x := Entry.boundary) (fun _ => rfl) fun b => ?_
      cases b.find? id with
      | some x => exact pure _
      | none => exact fun _ => rfl
    | _ => exact pure _
  exact hresolve.bind fun q => lift _

end Entry.Keeps

open Entry in
theorem Request.enter_keeps (q : Request Nat) : q.enter.Keeps := by
  cases q with
  | boxNull | boxBool | boxInt | boxByte | boxChar => exact .map (.bind (.lift _) .give) _
  | tagOf p => exact .map (.bind (.checked p _) fun x => .pure _) _
  | unboxScalar p =>
    refine .map (.bind (.checked p _) fun x => ?_) _
    cases x.scalar? with
    | some raw => exact .pure raw
    | none => exact .lift _
  | release p =>
    refine .bind (.bind (.checked p _) fun x => ?_) fun _ => .pure _
    exact fun _ => rfl
  | call name signature p =>
    refine .map (.bind (.lift _) fun name => .bind (.lift _) fun signature => .bind (.checked p _) fun x => ?_) _
    refine .bind (x := Entry.boundary) (fun _ => rfl) fun b => ?_
    cases b.installed with
    | none => exact .lift _
    | some runtime =>
      refine .bind (.lift _) fun r => ?_
      cases r with
      | ok y => exact .give y
      | error e => exact .lift _

/-! ## Events -/

inductive Event where
  | init
  | shutdown
  | install (r : Runtime)
  /-- A call of compiled code. -/
  | request (q : Request Nat)

theorem Entry.lift_apply (o : Op α) (b : Boundary) (s : Session) :
    (liftM o : Entry α) (b, s) = match o s with
      | (.ok a, s') => (.ok a, b, s')
      | (.error f, s') => (.error (.fault f), b, s') := Mirrors.lift o s

theorem Entry.init_apply (extensions : List Module) (b : Boundary) (t : Session) :
    init extensions (b, t) = match b.installed with
      | some _ => (.ok (), b, t.write alreadyRecord)
      | none =>
        match Runtime.boot extensions [] t with
        | (.ok r, t') => (.ok (), { b with installed := some r }, t')
        | (.error f, t') => (.error (.fault f), b, t') := by
  simp only [init, bind_apply, boundary, ExceptT.mk]
  cases b.installed with
  | some r => rfl
  | none =>
    simp only [bind_apply, lift_apply]
    rcases Runtime.boot extensions [] t with ⟨_ | _, _⟩ <;> rfl

namespace Event

/-- The event itself, in a process with these extensions. -/
def enter (extensions : List Module) : Event → Entry Unit
  | init => Entry.init extensions
  | shutdown => Entry.shutdown
  | install r => Entry.install r
  | request q => do
    let _ ← q.enter

/-- What an event makes of the runtime installed, if it comes to its end. -/
inductive Moves (extensions : List Module) (t : Session) : Option Runtime → Event → Option Runtime → Prop
  | kept (r : Runtime) : Moves extensions t (some r) .init (some r)
  | booted (r : Runtime) (t' : Session) : Runtime.boot extensions [] t = (.ok r, t') →
      Moves extensions t none .init (some r)
  | dropped (i : Option Runtime) : Moves extensions t i .shutdown none
  | replaced (i : Option Runtime) (r : Runtime) : Moves extensions t i (.install r) (some r)
  | used (i : Option Runtime) (q : Request Nat) : Moves extensions t i (.request q) i

theorem moves {extensions : List Module} {e : Event} {b b' : Boundary} {t t' : Session}
    (h : e.enter extensions (b, t) = (.ok (), b', t')) : Moves extensions t b.installed e b'.installed := by
  cases e with
  | shutdown => cases h; exact .dropped _
  | install r => cases h; exact .replaced _ r
  | request q =>
    have hkeeps : (enter extensions (.request q)).Keeps := q.enter_keeps.bind fun _ => .pure _
    have hinstalled := hkeeps (b, t)
    rw [h] at hinstalled
    rw [hinstalled]
    exact .used _ q
  | init =>
    simp only [enter, Entry.init_apply] at h
    cases hi : b.installed with
    | some r =>
      rw [hi] at h
      cases h
      rw [hi]
      exact .kept r
    | none =>
      rcases hboot : Runtime.boot extensions [] t with ⟨f | r, t₁⟩
      · simp only [hi, hboot] at h
        cases h
      · simp only [hi, hboot] at h
        cases h
        exact .booted r t' hboot

theorem enter_ok {extensions : List Module} (hboots : ∀ s, ∃ r s', Runtime.boot extensions [] s = (.ok r, s'))
    {e : Event} (he : ∀ q, e ≠ .request q) (p : Boundary × Session) : ∃ p', e.enter extensions p = (.ok (), p') := by
  obtain ⟨b, t⟩ := p
  cases e with
  | shutdown | install => exact ⟨_, rfl⟩
  | request q => exact absurd rfl (he q)
  | init =>
    simp only [enter, Entry.init_apply]
    cases b.installed with
    | some r => exact ⟨_, rfl⟩
    | none =>
      obtain ⟨r, t', hboot⟩ := hboots t
      rw [hboot]
      exact ⟨_, rfl⟩

end Event

/-- One event after the other, up to one that ends the process. -/
def history (extensions : List Module) (p : Boundary × Session) (events : List Event) :
    Transcript Unit (Boundary × Session) :=
  transcript (fun p e => e.enter extensions p) p events

section Histories

variable {extensions : List Module} {p : Boundary × Session} {events later : List Event} {e : Event}

theorem history_cons (h : (history extensions p (e :: events)).stop = none) :
    ∃ p', e.enter extensions p = (.ok (), p') ∧ (history extensions p' events).stop = none ∧
      (history extensions p (e :: events)).last = (history extensions p' events).last := by
  rcases he : e.enter extensions p with ⟨stop | ⟨⟩, p'⟩
  · rw [history, transcript_cons_error he] at h
    cases h
  · rw [history, transcript_cons_ok he] at h ⊢
    exact ⟨p', rfl, h, rfl⟩

theorem history_append (h : (history extensions p (events ++ later)).stop = none) :
    (history extensions p events).stop = none ∧
      (history extensions (history extensions p events).last later).stop = none ∧
      (history extensions p (events ++ later)).last =
        (history extensions (history extensions p events).last later).last := by
  have hearlier : (history extensions p events).stop = none := by
    by_contra hstop
    rw [history, transcript_append_of_stop hstop] at h
    exact hstop h
  obtain ⟨hstop, hlast⟩ := transcript_append hearlier later
  exact ⟨hearlier, hstop ▸ h, hlast⟩

/-- The run around one of its events. -/
theorem history_split (h : (history extensions p (events ++ e :: later)).stop = none) :
    (history extensions p events).stop = none ∧
      ∃ p', e.enter extensions (history extensions p events).last = (.ok (), p') ∧
        (history extensions p' later).stop = none ∧
        (history extensions p (events ++ e :: later)).last = (history extensions p' later).last := by
  obtain ⟨hevents, hrest, hlast⟩ := history_append h
  obtain ⟨p', he, hlater, hlast'⟩ := history_cons hrest
  exact ⟨hevents, p', he, hlater, hlast.trans hlast'⟩

/-- If boots do not fault, events that are no calls of compiled code come to their end. -/
theorem history_completes (hboots : ∀ s, ∃ r s', Runtime.boot extensions [] s = (.ok r, s'))
    (hevents : ∀ q, Event.request q ∉ events) : (history extensions p events).stop = none := by
  induction events generalizing p with
  | nil => rfl
  | cons e events ih =>
    obtain ⟨p', he⟩ := Event.enter_ok hboots (e := e) (fun q hq => hevents q (hq ▸ List.mem_cons_self)) p
    rw [history, transcript_cons_ok he]
    exact ih fun q hq => hevents q (List.mem_cons_of_mem e hq)

/-! ## Runs of events -/

/-- What each of these events keeps true of the runtime installed, a run of them does. -/
theorem history_keeps {P : Option Runtime → Prop}
    (hmoves : ∀ e ∈ events, ∀ t i i', P i → Event.Moves extensions t i e i' → P i')
    (h : (history extensions p events).stop = none) (hp : P p.1.installed) :
    P (history extensions p events).last.1.installed := by
  induction events generalizing p with
  | nil => exact hp
  | cons e events ih =>
    obtain ⟨p', he, hrest, hlast⟩ := history_cons h
    rw [hlast]
    exact ih (fun e' he' => hmoves e' (List.mem_cons_of_mem e he')) hrest
      (hmoves e List.mem_cons_self p.2 _ _ hp (Event.moves he))

theorem stays_none (h : (history extensions p events).stop = none) (hinit : .init ∉ events)
    (hinstall : ∀ r, .install r ∉ events) (hp : p.1.installed = none) :
    (history extensions p events).last.1.installed = none := by
  refine history_keeps (P := (· = none)) ?_ h hp
  rintro e he t i i' rfl hmoves
  cases hmoves with
  | booted => exact absurd he hinit
  | dropped | used => rfl
  | replaced _ r => exact absurd he (hinstall r)

theorem stays_some (h : (history extensions p events).stop = none) (hshutdown : .shutdown ∉ events)
    (hp : p.1.installed ≠ none) : (history extensions p events).last.1.installed ≠ none := by
  refine history_keeps (P := (· ≠ none)) ?_ h hp
  intro e he t i i' hi hmoves
  cases hmoves with
  | kept | booted | replaced => exact Option.some_ne_none _
  | dropped => exact absurd he hshutdown
  | used => exact hi

theorem stays {r : Runtime} (h : (history extensions p events).stop = none) (hshutdown : .shutdown ∉ events)
    (hinstall : ∀ r, .install r ∉ events) (hp : p.1.installed = some r) :
    (history extensions p events).last.1.installed = some r := by
  refine history_keeps (P := (· = some r)) ?_ h hp
  rintro e he t i i' rfl hmoves
  cases hmoves with
  | kept | used => rfl
  | dropped => exact absurd he hshutdown
  | replaced _ r => exact absurd he (hinstall r)

/-- An event that installs a runtime, whichever, with no shutdown in the run. -/
theorem some_of_mem (h : (history extensions p events).stop = none) (hshutdown : .shutdown ∉ events) (he : e ∈ events)
    (hmoves : ∀ t i i', Event.Moves extensions t i e i' → i' ≠ none) :
    (history extensions p events).last.1.installed ≠ none := by
  obtain ⟨earlier, later, rfl⟩ := List.append_of_mem he
  obtain ⟨-, p', hp', hlater, hlast⟩ := history_split h
  rw [hlast]
  refine stays_some hlater (fun hm => hshutdown ?_) (hmoves _ _ _ (Event.moves hp'))
  exact List.mem_append_right earlier (List.mem_cons_of_mem e hm)

theorem history_none_iff (h : (history extensions p events).stop = none) (hshutdown : .shutdown ∉ events)
    (hp : p.1.installed = none) : (history extensions p events).last.1.installed = none ↔
      .init ∉ events ∧ ∀ r, .install r ∉ events := by
  constructor
  · intro hnone
    refine ⟨fun hinit => ?_, fun r hinstall => ?_⟩
    · exact some_of_mem h hshutdown hinit (by rintro t i i' ⟨⟩ <;> exact Option.some_ne_none _) hnone
    · exact some_of_mem h hshutdown hinstall (by rintro t i i' ⟨⟩; exact Option.some_ne_none _) hnone
  · intro ⟨hinit, hinstall⟩
    exact stays_none h hinit hinstall hp

/-- Whatever came before it, an `install` decides until the next one. -/
theorem latest_install {r : Runtime} (h : (history extensions p (events ++ .install r :: later)).stop = none)
    (hshutdown : .shutdown ∉ later) (hinstall : ∀ r', .install r' ∉ later) :
    (history extensions p (events ++ .install r :: later)).last.1.installed = some r := by
  obtain ⟨-, p', hp', hlater, hlast⟩ := history_split h
  rw [hlast]
  refine stays hlater hshutdown hinstall ?_
  cases hp'
  rfl

/-- Where there is none yet, the first `init` boots one, and without an `install` it stays. -/
theorem first_init (h : (history extensions p (events ++ .init :: later)).stop = none) (hp : p.1.installed = none)
    (hshutdown : .shutdown ∉ later) (hinit : .init ∉ events) (hinstall : ∀ r, .install r ∉ events ++ .init :: later) :
    ∃ r t', (history extensions p (events ++ .init :: later)).last.1.installed = some r ∧
      Runtime.boot extensions [] (history extensions p events).last.2 = (.ok r, t') := by
  obtain ⟨hevents, p', hp', hlater, hlast⟩ := history_split h
  have hnone := stays_none hevents hinit (fun r hm => hinstall r (List.mem_append_left _ hm)) hp
  have hmoves := Event.moves hp'
  rw [hnone] at hmoves
  generalize hi : p'.1.installed = i at hmoves
  cases hmoves with
  | booted r t' hboot =>
    refine ⟨r, t', ?_, hboot⟩
    rw [hlast]
    exact stays hlater hshutdown (fun r hm => hinstall r (List.mem_append_right _ (List.mem_cons_of_mem _ hm))) hi

end Histories

/-! ## Calls into the installed runtime -/

/-- What is wrong with a text that spells nothing. -/
def ForeignText.complaint : ForeignText → String
  | none => "null string"
  | some _ => "string is not valid UTF-8"

namespace Entry

theorem readText_of_unspelled {text : ForeignText} (h : text.spelled? = none) (label : String) (s : Session) :
    readText text label s = (.error (.internal label text.complaint), s.raised (.internal label text.complaint)) := by
  cases text with
  | none => rfl
  | some bytes =>
    have : String.fromUTF8? (bytes.takeWhile (· ≠ 0)).toByteArray = none := h
    simp only [readText, this]
    rfl

/-- A text that spells nothing is all that a call looks at. -/
theorem call_of_unspelled_name {name : ForeignText} (h : name.spelled? = none) (signature : ForeignText)
    (arg : Pointer Nat) (b : Boundary) (t : Session) : call name signature arg (b, t) =
      let f := Fault.internal "brisk_call1" name.complaint
      (.error (.fault f), b, t.raised f) := by
  simp only [call, bind_apply, lift_apply, readText_of_unspelled h]

theorem call_of_unspelled_signature {name signature : ForeignText} {n : String} (hname : name.spelled? = some n)
    (h : signature.spelled? = none) (arg : Pointer Nat) (b : Boundary) (t : Session) : call name signature arg (b, t) =
      let f := Fault.internal "brisk_call1" signature.complaint
      (.error (.fault f), b, t.raised f) := by
  simp only [call, bind_apply, lift_apply, readText_of_spelled hname, readText_of_unspelled h]

variable {b : Boundary} {arg : Pointer Nat} {p : Pointer Handle}

theorem checked_apply (hp : arg.rename b.find? = .ok p) (label : String) (t : Session) :
    checked arg label (b, t) = match Guard.checkPointer p label t with
      | (.ok x, t') => (.ok x, b, t')
      | (.error f, t') => (.error (.fault f), b, t') := by
  have hresolve : resolve arg (b, t) = (.ok p, b, t) := by
    cases arg with
    | object id =>
      obtain ⟨x, hx, rfl⟩ := Pointer.rename_object_eq_ok hp
      simp only [resolve, bind_apply, boundary, ExceptT.mk, hx]
      rfl
    | _ => cases hp; rfl
  simp only [checked, bind_apply, hresolve, lift_apply]
  rcases Guard.checkPointer p label t with ⟨_ | _, _⟩ <;> rfl

/-- What a call answers where the argument's pointer stands for `p`. Name, signature and
    argument are looked at in this order, and only then is there need of a runtime. -/
structure Answers (b : Boundary) (t : Session) (name signature : ForeignText) (arg : Pointer Nat)
    (p : Pointer Handle) : Prop where
  badName : name.spelled? = none → ∃ t',
    call name signature arg (b, t) = (.error (.fault (.internal "brisk_call1" name.complaint)), b, t')
  badSignature : ∀ n, name.spelled? = some n → signature.spelled? = none → ∃ t',
    call name signature arg (b, t) = (.error (.fault (.internal "brisk_call1" signature.complaint)), b, t')
  badHandle : ∀ n g f t', name.spelled? = some n → signature.spelled? = some g →
    Guard.checkPointer p n t = (.error f, t') → call name signature arg (b, t) = (.error (.fault f), b, t')
  absent : ∀ n g x t', name.spelled? = some n → signature.spelled? = some g →
    Guard.checkPointer p n t = (.ok x, t') → b.installed = none → ∃ t'',
      call name signature arg (b, t) =
        (.error (.fault (.internal n "runtime used before brisk_runtime_init")), b, t'')
  /-- The runtime installed decides what comes of it; a name that it does not know is an
      internal fault as well. -/
  present : ∀ n g x t' r, name.spelled? = some n → signature.spelled? = some g →
    Guard.checkPointer p n t = (.ok x, t') → b.installed = some r →
      call name signature arg (b, t) = match r.call n ⟨g⟩ [x] t' with
        | (.ok (.ok y), t'') => (.ok y.id, b.own y, t'')
        | (.ok (.error e), t'') => (.error (.fault (.internal n e.message)), b, t''.raised (.internal n e.message))
        | (.error f, t'') => (.error (.fault f), b, t'')

theorem call_answers (hp : arg.rename b.find? = .ok p) (t : Session) (name signature : ForeignText) :
    Answers b t name signature arg p := by
  constructor
  · exact fun hname => ⟨_, call_of_unspelled_name hname signature arg b t⟩
  · exact fun n hname hsignature => ⟨_, call_of_unspelled_signature hname hsignature arg b t⟩
  · intro n g f t' hname hsignature hcheck
    simp only [call, bind_apply, lift_apply, readText_of_spelled hname, readText_of_spelled hsignature,
      checked_apply hp, hcheck]
  · intro n g x t' hname hsignature hcheck hinstalled
    simp only [call, bind_apply, lift_apply, readText_of_spelled hname, readText_of_spelled hsignature,
      checked_apply hp, hcheck, boundary, ExceptT.mk, hinstalled]
    exact ⟨_, rfl⟩
  · intro n g x t' r hname hsignature hcheck hinstalled
    simp only [call, bind_apply, lift_apply, readText_of_spelled hname, readText_of_spelled hsignature,
      checked_apply hp, hcheck, boundary, ExceptT.mk, hinstalled]
    rcases r.call n ⟨g⟩ [x] t' with ⟨_ | _ | _, _⟩ <;> rfl

end Entry

/-! ## What is installed -/

/-- The events up to the last shutdown, and those since. -/
structure Event.Since (events before since : List Event) : Prop where
  split : events = before ++ since
  start : before = [] ∨ ∃ earlier, before = earlier ++ [.shutdown]
  none : .shutdown ∉ since

theorem Event.exists_since (events : List Event) : ∃ before since, Since events before since := by
  induction events with
  | nil => exact ⟨[], [], rfl, Or.inl rfl, List.not_mem_nil⟩
  | cons e events ih =>
    obtain ⟨before, since, rfl, hstart, hnone⟩ := ih
    rcases hstart with rfl | ⟨earlier, rfl⟩
    · by_cases he : e = .shutdown
      · exact ⟨[e], since, rfl, Or.inr ⟨[], by rw [he]; rfl⟩, hnone⟩
      · exact ⟨[], e :: since, rfl, Or.inl rfl, fun hm => (List.mem_cons.mp hm).elim (he ·.symm) hnone⟩
    · exact ⟨e :: (earlier ++ [.shutdown]), since, rfl, Or.inr ⟨e :: earlier, rfl⟩, hnone⟩

/-- After these events, from a process that has no runtime. -/
structure Installation (extensions : List Module) (s : Session) (before since : List Event) (b : Boundary)
    (t : Session) : Prop where
  none_iff : b.installed = none ↔ .init ∉ since ∧ ∀ r, .install r ∉ since
  latest : ∀ earlier r later, since = earlier ++ .install r :: later → (∀ r', .install r' ∉ later) →
    b.installed = some r
  /-- What the first `init` booted, in the session that it found. -/
  first : ∀ earlier later, since = earlier ++ .init :: later → .init ∉ earlier → (∀ r, .install r ∉ since) →
    ∃ r t', b.installed = some r ∧
      Runtime.boot extensions [] (history extensions ({}, s) (before ++ earlier)).last.2 = (.ok r, t')
  calls : ∀ name signature arg p, arg.rename b.find? = .ok p → Entry.Answers b t name signature arg p

theorem before_none {extensions : List Module} {s : Session} {events before since : List Event}
    (hsince : Event.Since events before since) (h : (history extensions ({}, s) before).stop = none) :
    (history extensions ({}, s) before).last.1.installed = none := by
  rcases hsince.start with rfl | ⟨earlier, rfl⟩
  · rfl
  · obtain ⟨-, -, hlast⟩ := history_append h
    rw [hlast]
    rfl

/-- Every history of a process: it goes on while boots do not fault, and wherever it has got
    to, the events since the last shutdown tell which runtime is installed. -/
theorem installed_follows (extensions : List Module) (s : Session) (events : List Event) :
    ((∀ s, ∃ r s', Runtime.boot extensions [] s = (.ok r, s')) → (∀ q, .request q ∉ events) →
        (history extensions ({}, s) events).stop = none) ∧
      (∃ before since, Event.Since events before since) ∧
      ((history extensions ({}, s) events).stop = none → ∀ before since, Event.Since events before since →
        Installation extensions s before since (history extensions ({}, s) events).last.1
          (history extensions ({}, s) events).last.2) := by
  refine ⟨history_completes, Event.exists_since events, fun h before since hsince => ?_⟩
  obtain ⟨rfl, hstart, hshutdown⟩ := hsince
  obtain ⟨hbefore, hrest, hlast⟩ := history_append h
  have hnone := before_none ⟨rfl, hstart, hshutdown⟩ hbefore
  have hafter : ∀ {earlier e later}, since = earlier ++ e :: later → .shutdown ∉ later := fun hsplit hm =>
    hshutdown (hsplit ▸ List.mem_append_right _ (List.mem_cons_of_mem _ hm))
  constructor
  · rw [hlast]
    exact history_none_iff hrest hshutdown hnone
  · intro earlier r later hsplit hinstall
    rw [hlast]
    subst hsplit
    exact latest_install hrest (hafter rfl) hinstall
  · intro earlier later hsplit hinit hinstall
    rw [hlast]
    subst hsplit
    have hreached : (history extensions ({}, s) (before ++ earlier)).last =
        (history extensions (history extensions ({}, s) before).last earlier).last := by
      rw [← List.append_assoc] at h
      exact (history_append (history_append h).1).2.2
    rw [hreached]
    exact first_init hrest hnone (hafter rfl) hinit hinstall
  · exact fun name signature arg p hp => Entry.call_answers hp _ name signature

/-- After a shutdown the first `init` boots anew, and the second one finds its runtime. -/
theorem booted_after_shutdown :
    (history [] ({}, {}) [.install .echoing, .shutdown, .init, .init]).last.1.installed =
      some ⟨fill Builtin.rosters, ["text", "convert"], ⟨2, []⟩⟩ := by
  have hboots : ∀ s, ∃ r s', Runtime.boot [] [] s = (.ok r, s') := fun s => ⟨_, _, boot_alone.apply s⟩
  have hsince : Event.Since [.install .echoing, .shutdown, .init, .init] [.install .echoing, .shutdown]
      [.init, .init] := ⟨rfl, Or.inr ⟨[.install .echoing], rfl⟩, by simp⟩
  obtain ⟨hcompletes, -, hinstalled⟩ := installed_follows [] {} [.install .echoing, .shutdown, .init, .init]
  have hinstallation := hinstalled (hcompletes hboots (by simp)) _ _ hsince
  obtain ⟨r, t', hr, hboot⟩ := hinstallation.first [] [.init] rfl (by simp) (by simp)
  rw [hr]
  cases (boot_alone.apply _).symm.trans hboot
  rfl

end BoxedRuntime
